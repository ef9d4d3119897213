import DebugBridge.Fault
import DebugBridge.Program

/-!
# Interleavings

An `Arena` is a state that programs share, together with everything that can be done to it: atomic
actions of programs, and happenings that are nobody's action.  In a `System` any number of callers
run programs in an arena.  `System.step?` performs one move; which moves are made is up to the
environment, so that a statement about all sequences of moves is one about all interleavings.

An action that waits with a limit may be given up at any moment at which it has to wait, since
nothing is assumed about the speed of the callers.
-/

namespace DebugBridge

/-- A state that programs share, with what can be done to it. -/
structure Arena (I : Interface) where
  State : Type
  /-- Performs an action, unless it has to wait.  The reaction is the fault, if any, with which the
  surroundings answer the action. -/
  perform : (reaction : Option Fault) → (action : I.Action) → State →
    Option (State × I.Answer action)
  /-- Concludes an action that still has to wait when its time is over, if it has a limit. -/
  giveUp : (reaction : Option Fault) → (action : I.Action) → State →
    Option (State × I.Answer action)
  /-- what can happen apart from the actions of programs -/
  Happening : Type
  /-- Lets something happen, if it can. -/
  happen : Happening → State → Option State

/-- Callers in an arena; each is what is left of its program. -/
structure System {I : Interface} (arena : Arena I) (α : Type) where
  state : arena.State
  callers : List (Program I α) := []

/-- A move of a system. -/
inductive Move {I : Interface} (arena : Arena I) (α : Type)
  | enter (program : Program I α)
  | act (caller : Nat) (reaction : Option Fault)
  | expire (caller : Nat) (reaction : Option Fault)
  /-- something happens that is no action of a caller -/
  | happen (happening : arena.Happening)

namespace System

variable {I : Interface} {arena : Arena I} {α : Type}

/-- The next action of a caller, with what follows on it. -/
def next? (system : System arena α) (caller : Nat) :
    Option ((action : I.Action) × (I.Answer action → Program I α)) :=
  match system.callers[caller]? with
  | some (.act action next) => some ⟨action, next⟩
  | _ => none

def value? (system : System arena α) (caller : Nat) : Option α :=
  system.callers[caller]?.bind Program.value?

/-- The system after a caller got an answer. -/
def resume (system : System arena α) (caller : Nat) (state : arena.State) (rest : Program I α) :
    System arena α :=
  ⟨state, system.callers.set caller rest⟩

/-- Performs a move, if it is possible. -/
def step? (system : System arena α) : Move arena α → Option (System arena α)
  | .enter program => some { system with callers := system.callers ++ [program] }
  | .act caller reaction => do
      let ⟨action, next⟩ ← system.next? caller
      let (state, answer) ← arena.perform reaction action system.state
      return system.resume caller state (next answer)
  | .expire caller reaction => do
      let ⟨action, next⟩ ← system.next? caller
      match arena.perform reaction action system.state with
      | some _ => none
      | none =>
          let (state, answer) ← arena.giveUp reaction action system.state
          return system.resume caller state (next answer)
  | .happen happening =>
      (arena.happen happening system.state).map fun state => { system with state }

end System

end DebugBridge
