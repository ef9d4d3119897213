import Mathlib.Tactic.Basic

/-!
# Readers that may fail

What a sequence of steps comes to of which each may fail: the readers of values and records and the
decoders of structures are made of such steps.
-/

namespace DebugBridge

theorem bind_eq_ok {ε α β : Type} {first : Except ε α} {next : α → Except ε β} {result : β} :
    first >>= next = .ok result ↔ ∃ value, first = .ok value ∧ next value = .ok result := by
  cases first <;> simp [bind, Except.bind]

theorem map_eq_ok {ε α β : Type} {first : Except ε α} {change : α → β} {result : β} :
    first.map change = .ok result ↔ ∃ value, first = .ok value ∧ change value = result := by
  cases first <;> simp [Except.map]

theorem bind_eq_error {ε α β : Type} {first : Except ε α} {next : α → Except ε β} {reason : ε} :
    first >>= next = .error reason ↔
      first = .error reason ∨ ∃ value, first = .ok value ∧ next value = .error reason := by
  cases first <;> simp [bind, Except.bind]

theorem map_eq_error {ε α β : Type} {first : Except ε α} {change : α → β} {reason : ε} :
    first.map change = .error reason ↔ first = .error reason := by
  cases first <;> simp [Except.map]

end DebugBridge
