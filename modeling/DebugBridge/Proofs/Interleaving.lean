import DebugBridge.Interleaving

/-!
# What moves do

The moves of the callers of a system, taken apart: a caller that acts, or gives up waiting, has an
action to do, and goes on with the answer.  Before that, what can be said about steps of any kind
that are taken one after the other (`List.foldlM`), if they are possible.
-/

namespace DebugBridge

/-! ## One step after the other -/

section Steps

variable {σ τ : Type} {step? : σ → τ → Option σ} {first middle last : σ} {step : τ}
  {steps more : List τ}

theorem foldlM_cons_eq_some (h : (step :: steps).foldlM step? first = some last) :
    ∃ middle, step? first step = some middle ∧ steps.foldlM step? middle = some last :=
  Option.bind_eq_some_iff.mp h

/-- Steps can be taken one at a time. -/
theorem foldlM_cons_of_eq_some (h : step? first step = some middle) :
    (step :: steps).foldlM step? first = steps.foldlM step? middle := by
  rw [List.foldlM_cons, h]
  rfl

/-- Steps can be taken in two runs. -/
theorem foldlM_append_of_eq_some (h : steps.foldlM step? first = some middle) :
    (steps ++ more).foldlM step? first = more.foldlM step? middle := by
  rw [List.foldlM_append, h]
  rfl

/-- What holds at first, and still does after each step, holds after all of them. -/
theorem holds_of_foldlM (h : steps.foldlM step? first = some last) (holds : σ → Prop)
    (hfirst : holds first)
    (hstep : ∀ {now next step}, step ∈ steps → step? now step = some next → holds now →
      holds next) : holds last := by
  induction steps generalizing first with
  | nil =>
      cases h
      exact hfirst
  | cons step rest ih =>
      obtain ⟨middle, hmiddle, hrest⟩ := foldlM_cons_eq_some h
      refine ih hrest (hstep List.mem_cons_self hmiddle hfirst) fun hmem => ?_
      exact hstep (List.mem_cons_of_mem step hmem)

end Steps

/-! ## Moves of callers -/

namespace System

variable {I : Interface} {arena : Arena I} {α : Type} {system next : System arena α} {caller : Nat}
  {reaction : Option Fault}

theorem next?_eq_some {action : I.Action} {rest : I.Answer action → Program I α}
    (h : system.next? caller = some ⟨action, rest⟩) :
    system.callers[caller]? = some (.act action rest) := by
  unfold next? at h
  split at h
  · rename_i heq
    cases h
    exact heq
  · cases h

/-- A caller has got its answer when nothing is left of its program. -/
theorem value?_eq_some_iff {value : α} :
    system.value? caller = some value ↔ system.callers[caller]? = some (.done value) := by
  rw [value?]
  cases system.callers[caller]? with
  | none => simp
  | some rest => cases rest <;> simp [Program.value?]

/-- A caller that has an action to do has not got its answer. -/
theorem value?_of_act {action : I.Action} {rest : I.Answer action → Program I α}
    (hcaller : system.callers[caller]? = some (.act action rest)) :
    system.value? caller = none := by
  rw [value?, hcaller]
  rfl

theorem next?_of_getElem? {action : I.Action} {rest : I.Answer action → Program I α}
    (hcaller : system.callers[caller]? = some (.act action rest)) :
    system.next? caller = some ⟨action, rest⟩ := by
  simp [next?, hcaller]

/-- What a caller does when it goes on. -/
theorem step?_act (h : system.step? (.act caller reaction) = some next) :
    ∃ action rest state answer, system.callers[caller]? = some (.act action rest) ∧
      arena.perform reaction action system.state = some (state, answer) ∧
      next = ⟨state, system.callers.set caller (rest answer)⟩ := by
  obtain ⟨⟨action, rest⟩, hcaller, h⟩ := Option.bind_eq_some_iff.mp h
  obtain ⟨⟨state, answer⟩, hperform, h⟩ := Option.bind_eq_some_iff.mp h
  cases h
  exact ⟨action, rest, state, answer, next?_eq_some hcaller, hperform, rfl⟩

/-- What a caller does when it gives up. -/
theorem step?_expire (h : system.step? (.expire caller reaction) = some next) :
    ∃ action rest state answer, system.callers[caller]? = some (.act action rest) ∧
      arena.perform reaction action system.state = none ∧
      arena.giveUp reaction action system.state = some (state, answer) ∧
      next = ⟨state, system.callers.set caller (rest answer)⟩ := by
  obtain ⟨⟨action, rest⟩, hcaller, h⟩ := Option.bind_eq_some_iff.mp h
  cases hwait : arena.perform reaction action system.state with
  | some result => simp [hwait] at h
  | none =>
      simp only [hwait] at h
      obtain ⟨⟨state, answer⟩, hgiveUp, h⟩ := Option.bind_eq_some_iff.mp h
      cases h
      exact ⟨action, rest, state, answer, next?_eq_some hcaller, hwait, hgiveUp, rfl⟩

section Moves

variable {action : I.Action} {rest : I.Answer action → Program I α} {state : arena.State}
  {answer : I.Answer action}

/-- A caller that need not wait can go on. -/
theorem step?_act_of_perform (hcaller : system.callers[caller]? = some (.act action rest))
    (hperform : arena.perform reaction action system.state = some (state, answer)) :
    system.step? (.act caller reaction) =
      some ⟨state, system.callers.set caller (rest answer)⟩ := by
  simp [step?, next?_of_getElem? hcaller, hperform, resume]

/-- A caller that need not wait does not give up. -/
theorem step?_expire_of_perform (hcaller : system.callers[caller]? = some (.act action rest))
    (hperform : arena.perform reaction action system.state = some (state, answer)) :
    system.step? (.expire caller reaction) = none := by
  simp [step?, next?_of_getElem? hcaller, hperform]

/-- A caller that has to wait can give up, if its action has a limit. -/
theorem step?_expire_of_giveUp (hcaller : system.callers[caller]? = some (.act action rest))
    (hwait : arena.perform reaction action system.state = none)
    (hgiveUp : arena.giveUp reaction action system.state = some (state, answer)) :
    system.step? (.expire caller reaction) =
      some ⟨state, system.callers.set caller (rest answer)⟩ := by
  simp [step?, next?_of_getElem? hcaller, hwait, hgiveUp, resume]

end Moves

end System

end DebugBridge
