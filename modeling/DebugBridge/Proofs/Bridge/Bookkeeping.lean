import DebugBridge.Proofs.Bridge.Members

/-!
# What a bridge keeps

Apart from its sessions a bridge keeps which of them is in place, and which breakpoints were set.
Nothing but single deeds of its callers changes that; what is done on a session, or happens there,
does not.

## Main statements

* `Chronicle.shift_of_turn?`: what a turn does to what a bridge keeps.
* `Possible.foldl_eq`: what a bridge keeps follows from what its callers have done.
* `Possible.exists_moment`: the moment at which a caller has done something to the bridge itself.
-/

namespace DebugBridge.Bridge

/-- Something was done on a session, or happened there. -/
def Occurrence.IsOfSession : Occurrence → Prop
  | .did _ deed | .gaveUp _ deed => ∃ id action, deed.action = .on id action
  | .within _ _ => True

/-- What a turn does to what a bridge keeps: nothing, or what a caller does there. -/
inductive Shift {isFile : String → Bool} (c next : Chronicle isFile) : Prop
  | aside (more : History) (hhistory : next.history = c.history ++ more)
      (hmore : ∀ occurrence ∈ more, occurrence.IsOfSession)
      (hplace : next.state.place = c.state.place)
      (hbreakpoints : next.state.breakpoints = c.state.breakpoints)
      (hlength : c.state.members.length ≤ next.state.members.length)
  | act {caller : Nat} {reaction : Option Fault} {action : Action}
      {rest : action.Answer → Activity (Option String)} {answer : action.Answer}
      (hcaller : c.system.callers[caller]? = some (.act action rest))
      (hperform : c.state.perform reaction action = some (next.state, answer))
      (hhistory : next.history = c.history ++ [.did caller ⟨action, answer⟩])

section Runs

variable {isFile : String → Bool} {surroundings : Surroundings} {c next : Chronicle isFile}

theorem Chronicle.shift_of_turn? {turn : Turn} (h : c.turn? surroundings turn = some next) :
    Shift c next := by
  cases Chronicle.change_of_turn? h with
  | errand => exact .aside [] (by simp) (by simp) rfl rfl (Nat.le_refl _)
  | forward => exact .aside [] (by simp) (by simp) rfl rfl (by simp)
  | adopt => exact .aside [] (by simp) (by simp) rfl rfl (by simp)
  | act hcaller hperform => exact .act hcaller hperform rfl
  | @expire caller reaction action rest state answer hcaller hwait hgiveUp =>
      cases action with
      | on id action =>
          obtain ⟨session, after, -, -, rfl⟩ := withSession_eq_some hgiveUp
          refine .aside _ rfl ?_ rfl rfl (by simp [State.onSession])
          simpa using ⟨id, action, rfl⟩
      | _ => cases hgiveUp
  | within hmember haside hhistory pushed =>
      refine .aside _ rfl ?_ rfl rfl (by simp [State.onSession])
      intro occurrence hmem
      obtain ⟨other, -, rfl⟩ := List.mem_map.mp hmem
      trivial

/-- What a bridge keeps is what the history makes of it, if deeds of callers change it so and nothing
that is of a session does. -/
theorem Possible.foldl_eq {β : Type} (view : State → β) (after : Occurrence → β → β)
    (hview : ∀ state next : State, next.place = state.place →
      next.breakpoints = state.breakpoints → view next = view state)
    (haside : ∀ occurrence value, occurrence.IsOfSession → after occurrence value = value)
    (hact : ∀ {caller : Nat} {reaction : Option Fault} {action : Action} {state next : State}
      {answer : action.Answer}, state.perform reaction action = some (next, answer) →
        view next = after (.did caller ⟨action, answer⟩) (view state))
    (h : Possible surroundings c) :
    view c.state = c.history.foldl (fun value occurrence => after occurrence value) (view {}) := by
  induction h with
  | fresh => rfl
  | @turn c next h turn hturn ih =>
      cases Chronicle.shift_of_turn? hturn with
      | aside more hhistory hmore hplace hbreakpoints hlength =>
          have hsame (value : β) :
              more.foldl (fun value occurrence => after occurrence value) value = value := by
            clear hhistory
            induction more with
            | nil => rfl
            | cons occurrence rest ih =>
                obtain ⟨hfirst, hrest⟩ := List.forall_mem_cons.mp hmore
                rw [List.foldl_cons, haside _ _ hfirst]
                exact ih hrest
          rw [hview c.state next.state hplace hbreakpoints, ih, hhistory, List.foldl_append, hsame]
      | act hcaller hperform hhistory =>
          rw [hact hperform, ih, hhistory, List.foldl_append]
          rfl

/-- The moment at which a caller has done something to the bridge itself. -/
theorem Possible.exists_moment (h : Possible surroundings c) {caller : Nat} {deed : Deed interface}
    (hbridge : ∀ id action, deed.action ≠ .on id action) {past future : History}
    (hhistory : c.history = past ++ .did caller deed :: future) :
    ∃ (before after : Chronicle isFile) (reaction : Option Fault),
      Possible surroundings before ∧ before.history = past ∧
      Possible surroundings after ∧ after.history = past ++ [.did caller deed] ∧
      before.state.perform reaction deed.action = some (after.state, deed.answer) := by
  induction h generalizing future with
  | fresh => simp at hhistory
  | @turn c next h turn hturn ih =>
      cases Chronicle.shift_of_turn? hturn with
      | aside more hnext hmore _ _ _ =>
          have hnot : .did caller deed ∉ more := by
            intro hmem
            obtain ⟨id, action, heq⟩ := hmore _ hmem
            exact hbridge id action heq
          rw [hnext] at hhistory
          rcases List.append_eq_append_iff.mp hhistory with
            ⟨between, -, hmore⟩ | ⟨between, hpast, hbetween⟩
          · exact absurd (by simp [hmore]) hnot
          · cases between with
            | nil =>
                rw [List.nil_append] at hbetween
                exact absurd (hbetween ▸ List.mem_cons_self) hnot
            | cons first future =>
                cases hbetween
                exact ih hpast
      | @act other reaction action rest answer hcaller hperform hnext =>
          rw [hnext] at hhistory
          rcases List.eq_nil_or_concat future with rfl | ⟨future, last, rfl⟩
          · obtain ⟨hpast, hdeed⟩ := List.append_inj' hhistory rfl
            cases hdeed
            exact ⟨c, next, reaction, h, hpast, h.turn turn hturn, hpast ▸ hnext, hperform⟩
          · rw [List.concat_eq_append, ← List.cons_append, ← List.append_assoc] at hhistory
            exact ih (List.append_inj' hhistory rfl).1

end Runs

end DebugBridge.Bridge
