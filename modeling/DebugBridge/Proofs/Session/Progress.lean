import DebugBridge.Proofs.Session.Flight

/-!
# Every caller can come to its answer

A caller that waits can give up after a time, except for the gate where that is awaited for ever.
The gate is held by a caller that itself never waits for the gate, so it can go on until it has
released it.  Hence no caller is ever stuck: what it asked for can be brought to an answer by turns
of the callers alone, whatever the debugger does or fails to do.

## Main statements

* `Possible.exists_return_of_clear`: a caller with no other caller on its way to a result can come
  to its answer by turns of its own.
* `Possible.exists_return`: any caller can come to its answer by turns of the callers.
-/

namespace DebugBridge.Session

/-- The gate can be taken when it is free. -/
theorem State.exists_acquire {state : State} (limit : Option Nat)
    (hgate : state.core.gateHeld = false) :
    ∃ next, state.perform none (.acquire limit) = some (next, true) := by
  simp [State.perform, Core.acquire?, hgate]

/-- Apart from the wait for a gate that is held, without a limit, every action can be concluded at any
time. -/
theorem State.can_conclude (state : State) {action : Action}
    (hgate : action = .acquire none → state.core.gateHeld = false) :
    (∃ next answer, state.perform none action = some (next, answer)) ∨
      state.perform none action = none ∧
        ∃ next answer, state.giveUp none action = some (next, answer) := by
  cases hperform : state.perform none action with
  | some result => exact .inl ⟨result.1, result.2, rfl⟩
  | none =>
      refine .inr ⟨rfl, ?_⟩
      cases action with
      | acquire limit =>
          cases limit with
          | none =>
              obtain ⟨next, hnext⟩ := State.exists_acquire none (hgate rfl)
              cases hnext.symm.trans hperform
          | some limit => exact ⟨_, _, rfl⟩
      | awaitOutput | awaitResult => exact ⟨_, _, rfl⟩
      | settle interval more =>
          simp only [State.giveUp]
          split
          · exact ⟨_, _, rfl⟩
          · exact ⟨_, _, rfl⟩
      | interrupt more =>
          simp only [State.perform] at hperform
          split at hperform <;> cases hperform
      | _ => cases hperform

/-- The programs of all requests take the course of commands, and leave the gate when they have
ended. -/
def Conducted {ρ α : Type} (program : ρ → Activity α) : Prop :=
  ∀ r, (program r).Follows (course True fun _ => True) .idle fun _ leg => leg = .idle

theorem Conducted.disciplined {ρ α : Type} {program : ρ → Activity α} (h : Conducted program) :
    Disciplined program :=
  fun r => ⟨_, h r⟩

theorem Request.conducted (plan : Plan) : Conducted (Request.program plan) := by
  intro request
  have hconducts := request.conducts (fun _ _ => trivial : ∀ outcome : Outcome, _ → True) plan
  exact Program.Follows.mono hconducts fun _ _ hends => hends.1

section Runs

variable {host : Host} {ρ α : Type} {program : ρ → Activity α} {c : Chronicle host ρ α} {n : Nat}

/-- A caller that need not wait for ever can take a turn. -/
theorem Chronicle.exists_turn {action : Action} {rest : action.Answer → Activity α}
    (hcaller : c.system.callers[n]? = some (.act action rest))
    (hgate : action = .acquire none → c.session.state.core.gateHeld = false) :
    ∃ (turn : Turn ρ) (next : Chronicle host ρ α), turn.IsOf n ∧
      c.turn? program turn = some next ∧ Chronicle.Moved (annals host) c n rest next := by
  refine Chronicle.exists_moved hcaller ?_
  rcases c.session.state.can_conclude hgate
      with ⟨state, answer, hperform⟩ | ⟨hwait, state, answer, hgiveUp⟩
  · exact .inl ⟨_, answer, withState_of_eq_some hperform⟩
  · exact .inr ⟨Option.map_eq_none_iff.mpr hwait, _, answer, withState_of_eq_some hgiveUp⟩

/-- A caller can come by itself to the end of what does not wait for the gate without a limit. -/
theorem Chronicle.exists_end_of_bind {β : Type} {left : Activity β} {next : β → Activity α}
    (hleft : left.OnlyDoes fun action : Action => action ≠ .acquire none)
    (hcaller : c.system.callers[n]? = some (left >>= next)) :
    ∃ turns later value, (∀ turn ∈ turns, turn.IsOf n) ∧ c.turns? program turns = some later ∧
      later.system.callers[n]? = some (next value) := by
  induction left generalizing c with
  | done value => exact ⟨[], c, value, nofun, rfl, hcaller⟩
  | act action rest ih =>
      obtain ⟨turn, middle, hturn, hmiddle, hmoved⟩ :=
        Chronicle.exists_turn hcaller fun heq => absurd heq hleft.1
      obtain ⟨answer, hgoesOn⟩ := hmoved.getElem?_eq hcaller
      obtain ⟨turns, later, value, hturns, hlater, hvalue⟩ := ih answer (hleft.2 answer) hgoesOn
      refine ⟨turn :: turns, later, value, List.forall_mem_cons.mpr ⟨hturn, hturns⟩, ?_, hvalue⟩
      exact (foldlM_cons_of_eq_some hmiddle).trans hlater

/-- A caller that is about to wait for the gate does not hold it. -/
theorem Possible.legOf_of_acquire (h : Possible program c) (hprogram : Disciplined program)
    {limit : Option Nat} {rest : Bool → Activity α}
    (hcaller : c.system.callers[n]? = some (.act (.acquire limit) rest)) :
    legOf (.caller n) c.history = .idle := by
  have hpermits : (legOf (.caller n) c.history).Permits True (.acquire limit) :=
    h.accounted.permits hprogram hcaller (h.admits (.caller n))
  revert hpermits
  cases legOf (.caller n) c.history with
  | idle => exact fun _ => rfl
  | _ => exact fun hpermits => absurd trivial hpermits

/-- A caller that has got its answer does not hold the gate. -/
theorem Possible.legOf_of_done (h : Possible program c) (hprogram : Conducted program) {value : α}
    (hcaller : c.system.callers[n]? = some (.done value)) :
    legOf (.caller n) c.history = .idle := by
  obtain ⟨r, -, hleads⟩ := h.accounted.leads n _ hcaller
  exact hleads.follows (h.admits (.caller n)) (hprogram r)

/-- The parties in the background do not hold the gate. -/
theorem Possible.legOf_background (h : Possible program c) {actor : Actor}
    (hactor : ∀ n, actor ≠ .caller n) : legOf actor c.history = .idle := by
  have hreports := h.reports hactor
  refine Protocol.stageAfter_eq_self fun deed hdeed => ?_
  exact Leg.after_of_not_steers (hreports deed hdeed).not_steers .idle deed.answer

/-- With no other caller on its way to a result, a caller can come to its answer by itself. -/
theorem Possible.exists_return_of_clear (h : Possible program c) (hprogram : Disciplined program)
    {rest : Activity α} (hcaller : c.system.callers[n]? = some rest)
    (hclear : ∀ actor, .caller n ≠ actor → legOf actor c.history = .idle) :
    ∃ turns later value, (∀ turn ∈ turns, turn.IsOf n) ∧
      c.turns? program turns = some later ∧ later.system.value? n = some value := by
  induction rest generalizing c with
  | done value =>
      exact ⟨[], c, value, nofun, rfl, System.value?_eq_some_iff.mpr hcaller⟩
  | act action rest ih =>
      have hgate : action = .acquire none → c.session.state.core.gateHeld = false := by
        rintro rfl
        have hidle := h.legOf_of_acquire hprogram hcaller
        cases h.orderly hprogram with
        | free _ hgate => exact hgate
        | held holder hholder =>
            by_cases hne : .caller n = holder
            · exact absurd (hne ▸ hidle) hholder
            · exact absurd (hclear holder hne) hholder
      obtain ⟨turn, next, hturn, hnext, hmoved⟩ :=
        Chronicle.exists_turn hcaller hgate
      obtain ⟨answer, hgoesOn⟩ := hmoved.getElem?_eq hcaller
      obtain ⟨turns, later, value, hturns, hlater, hvalue⟩ :=
        ih answer (h.turn turn hnext) hgoesOn fun actor hne =>
          (legOf_congr (hmoved.others actor hne)).trans (hclear actor hne)
      refine ⟨turn :: turns, later, value, List.forall_mem_cons.mpr ⟨hturn, hturns⟩, ?_, hvalue⟩
      exact (foldlM_cons_of_eq_some hnext).trans hlater

/-- A caller that holds the gate can come to release it by itself. -/
theorem Possible.exists_release (h : Possible program c) (hprogram : Conducted program)
    {rest : Activity α} (hcaller : c.system.callers[n]? = some rest) :
    ∃ turns later, (∀ turn ∈ turns, turn.IsOf n) ∧ c.turns? program turns = some later ∧
      legOf (.caller n) later.history = .idle ∧
      (∀ actor, .caller n ≠ actor → legOf actor later.history = legOf actor c.history) ∧
      ∀ m, n ≠ m → later.system.callers[m]? = c.system.callers[m]? := by
  induction rest generalizing c with
  | done value =>
      exact ⟨[], c, nofun, rfl, h.legOf_of_done hprogram hcaller, fun _ _ => rfl, fun _ _ => rfl⟩
  | act action rest ih =>
      by_cases hidle : legOf (.caller n) c.history = .idle
      · exact ⟨[], c, nofun, rfl, hidle, fun _ _ => rfl, fun _ _ => rfl⟩
      have hgate : action = .acquire none → c.session.state.core.gateHeld = false := by
        rintro rfl
        exact absurd (h.legOf_of_acquire hprogram.disciplined hcaller) hidle
      obtain ⟨turn, next, hturn, hnext, hmoved⟩ :=
        Chronicle.exists_turn hcaller hgate
      obtain ⟨answer, hgoesOn⟩ := hmoved.getElem?_eq hcaller
      obtain ⟨turns, later, hturns, hlater, hleg, hothers, hcallers⟩ :=
        ih answer (h.turn turn hnext) hgoesOn
      refine ⟨turn :: turns, later, List.forall_mem_cons.mpr ⟨hturn, hturns⟩, ?_, hleg, ?_, ?_⟩
      · exact (foldlM_cons_of_eq_some hnext).trans hlater
      · exact fun actor hne => (hothers actor hne).trans (legOf_congr (hmoved.others actor hne))
      · exact fun m hne => (hcallers m hne).trans (hmoved.getElem?_ne hne)

/-- Whatever a caller has asked for, it can come to its answer by turns of the callers alone. -/
theorem Possible.exists_return (h : Possible program c) (hprogram : Conducted program)
    {rest : Activity α} (hcaller : c.system.callers[n]? = some rest) :
    ∃ turns later value, (∀ turn ∈ turns, ∃ m, turn.IsOf m) ∧
      c.turns? program turns = some later ∧ later.system.value? n = some value := by
  have hsolo {turns : List (Turn ρ)} {m : Nat} (hturns : ∀ turn ∈ turns, turn.IsOf m) :
      ∀ turn ∈ turns, ∃ m, turn.IsOf m := fun turn hturn => ⟨m, hturns turn hturn⟩
  cases h.orderly hprogram.disciplined with
  | free hlegs =>
      obtain ⟨turns, later, value, hturns, hresult⟩ :=
        h.exists_return_of_clear hprogram.disciplined hcaller fun actor _ => hlegs actor
      exact ⟨turns, later, value, hsolo hturns, hresult⟩
  | held holder hholder hothers =>
      by_cases hself : .caller n = holder
      · subst hself
        obtain ⟨turns, later, value, hturns, hresult⟩ :=
          h.exists_return_of_clear hprogram.disciplined hcaller hothers
        exact ⟨turns, later, value, hsolo hturns, hresult⟩
      -- first the caller that holds the gate goes on until it has released it
      · obtain ⟨m, rfl⟩ : ∃ m, holder = .caller m := by
          refine Classical.byContradiction fun hnone => hholder (h.legOf_background ?_)
          exact fun m heq => hnone ⟨m, heq⟩
        have hne : m ≠ n := fun heq => hself (heq ▸ rfl)
        obtain ⟨held, hheld⟩ : ∃ held, c.system.callers[m]? = some held := by
          refine Option.isSome_iff_exists.mp (Option.isSome_iff_ne_none.mpr fun hnone => hholder ?_)
          have habsent : deedsOf (.caller m) c.history = [] :=
            h.accounted.absent m (List.getElem?_eq_none_iff.mp hnone)
          rw [legOf, habsent]
          rfl
        obtain ⟨turns, middle, hturns, hmiddle, hleg, hlegs, hcallers⟩ :=
          h.exists_release hprogram hheld
        have hclear : ∀ actor, .caller n ≠ actor → legOf actor middle.history = .idle := by
          intro actor _
          by_cases hactor : .caller m = actor
          · exact hactor ▸ hleg
          · rw [hlegs actor hactor, hothers actor hactor]
        obtain ⟨more, later, value, hmore, hlater, hvalue⟩ :=
          (h.turns turns hmiddle).exists_return_of_clear hprogram.disciplined
            ((hcallers n hne).trans hcaller) hclear
        refine ⟨turns ++ more, later, value, ?_, ?_, hvalue⟩
        · intro turn hturn
          exact (List.mem_append.mp hturn).elim (hsolo hturns turn) (hsolo hmore turn)
        · exact (foldlM_append_of_eq_some hmiddle).trans hlater

end Runs

end DebugBridge.Session
