import DebugBridge.Proofs.Session.Duties
import DebugBridge.Proofs.Session.Exit

/-!
# How a session stands

Whether commands are possible, whether the session is connected to a debugger, and how often the
input of that debugger was closed and its process terminated: these hang together with what the
parties of the session owe.  At most one party is at work on them at a time.  The input is closed and
the process terminated at most once, and only of a debugger that the session was connected to.

## Strategy

* `Passage` is what a turn does as far as the session as a whole is concerned: nothing, or one step
  that the duty of its actor permits.  Every turn is one (`Possible.passage`).
* `Standing` relates the state to the duties of all actors, and each passage preserves it
  (`Standing.of_passage`).

## Main statements

* `Possible.phase_eq`: the phase is what the history makes of it.
* `Possible.standing`: the invariant.
* `Shut.of_passage`: once nobody opens a session any more, commands stay impossible.
* `Possible.exists_starter`: who opens a session is a caller that has begun its start.
-/

namespace DebugBridge.Session

/-! ## The phase -/

/-- The phase after an occurrence. -/
def Occurrence.phaseAfter (phase : Phase) : Occurrence → Phase
  | .did _ ⟨.beginStart, idle⟩ => if idle then .starting else phase
  | .did _ ⟨.finishStart, kept⟩ => if kept then .ready else phase
  | .did _ ⟨.markExited, ended⟩ => if ended then .exited else phase
  | .did _ ⟨.applyExec record, _⟩ =>
      if phase = .exited then .exited else if record.isRunning then .running else .stopped
  | _ => phase

theorem perform_phase {reaction : Option Fault} {action : Action} {state after : State}
    {answer : action.Answer} (actor : Actor)
    (hperform : state.perform reaction action = some (after, answer)) :
    after.core.phase = Occurrence.phaseAfter state.core.phase (.did actor ⟨action, answer⟩) := by
  cases action with
  | beginStart | finishStart | markExited =>
      cases hperform
      simp only [Core.beginStart, Core.finishStart, Core.markExited, Occurrence.phaseAfter]
      split <;> rfl
  | applyExec record =>
      cases hperform
      rfl
  | deliver | claimTarget =>
      rw [perform_core hperform]
      simp only [Action.onCore, Core.deliver, Core.claimTarget]
      split <;> rfl
  | awaitResult ticket limit claimed =>
      rw [perform_core hperform]
      simp only [Action.onCore, Core.collect?]
      split
      · rfl
      · split <;> rfl
  | _ =>
      rw [perform_core hperform]
      rfl

theorem Effect.phase_eq {state after : State} {occurrence : Occurrence}
    (h : Effect state occurrence after) :
    after.core.phase = occurrence.phaseAfter state.core.phase := by
  cases h with
  | did hperform => exact perform_phase _ hperform
  | @gaveUp actor reaction action answer next hwait hgiveUp =>
      cases action with
      | awaitResult ticket limit claimed =>
          cases hgiveUp
          cases claimed <;> rfl
      | _ =>
          rw [giveUp_core hgiveUp (by simp)]
          rfl
  | printed hcore =>
      rw [hcore]
      rfl

/-- A session does not become idle again. -/
theorem Occurrence.phaseAfter_ne_idle {phase : Phase} (h : phase ≠ .idle)
    (occurrence : Occurrence) : occurrence.phaseAfter phase ≠ .idle := by
  unfold Occurrence.phaseAfter
  split
  · split <;> simp [h]
  · split <;> simp [h]
  · split <;> simp [h]
  · split
    · simp
    · split <;> simp
  · exact h

/-! ## The end of the session -/

/-- The two places where the end of a session is noted agree. -/
def Core.Agrees (core : Core) : Prop :=
  core.isExited = (core.phase == .exited)

theorem Core.Agrees.onCore {core : Core} (h : core.Agrees) (action : Action) :
    (action.onCore core).Agrees := by
  cases action with
  | beginStart | finishStart =>
      simp only [Action.onCore, Core.beginStart, Core.finishStart]
      split
      · rename_i hphase
        unfold Core.Agrees at h ⊢
        rw [hphase] at h
        exact h
      · exact h
  | markExited =>
      simp only [Action.onCore, Core.markExited]
      split
      · exact h
      · rfl
  | applyExec record =>
      unfold Core.Agrees at h ⊢
      simp only [Action.onCore, Core.applyExec]
      split
      · rename_i hphase
        rw [hphase] at h
        exact h
      · rename_i hphase
        have hgoesOn : core.isExited = false := h.trans (by simp [hphase])
        show core.isExited = _
        rw [hgoesOn]
        split <;> rfl
  | deliver | claimTarget =>
      simp only [Action.onCore, Core.deliver, Core.claimTarget]
      split <;> exact h
  | awaitResult ticket limit claimed =>
      simp only [Action.onCore, Core.collect?]
      split
      · exact h
      · split <;> exact h
  | _ => exact h

theorem Effect.agrees {state after : State} {occurrence : Occurrence}
    (h : Effect state occurrence after) (hagrees : state.core.Agrees) : after.core.Agrees := by
  cases h with
  | did hperform =>
      rw [perform_core hperform]
      exact hagrees.onCore _
  | @gaveUp actor reaction action answer next hwait hgiveUp =>
      cases action with
      | awaitResult ticket limit claimed =>
          cases hgiveUp
          cases claimed <;> exact hagrees
      | _ =>
          rw [giveUp_core hgiveUp (by simp)]
          exact hagrees
  | printed hcore =>
      rw [hcore]
      exact hagrees

theorem Core.Agrees.hasEnded {core : Core} (h : core.Agrees) (hexited : core.isExited = true) :
    core.HasEnded := by
  unfold Core.Agrees at h
  exact ⟨hexited, by simpa [hexited] using h.symm⟩

/-- Whoever wants to end a session leaves it ended, whether or not it was he who did it. -/
theorem Core.Agrees.hasEnded_of_markExited {reaction : Option Fault} {state after : State}
    {ended : Bool} (h : state.core.Agrees)
    (hperform : state.perform reaction .markExited = some (after, ended)) :
    after.core.HasEnded := by
  cases ended with
  | true => exact Session.hasEnded_of_markExited hperform
  | false =>
      simp only [State.perform, State.askCore, Core.markExited] at hperform
      split at hperform <;> cases hperform
      rename_i hexited
      exact h.hasEnded hexited

/-- The end is noted alike in both places, and whoever has wanted it has got it. -/
structure Core.Heeds (core : Core) (history : History) : Prop where
  agrees : core.Agrees
  hasEnded : ∀ actor ended, ⟨.markExited, ended⟩ ∈ deedsOf actor history → core.HasEnded

theorem Core.heeds_new : Core.Heeds {} [] :=
  ⟨rfl, by simp⟩

theorem Effect.heeds {state after : State} {occurrence : Occurrence} {history : History}
    (h : Effect state occurrence after) (hheeds : state.core.Heeds history) :
    after.core.Heeds (history ++ [occurrence]) := by
  refine ⟨h.agrees hheeds.agrees, ?_⟩
  intro actor ended hend
  rw [deedsOf_append] at hend
  rcases List.mem_append.mp hend with hend | hend
  · exact h.hasEnded (hheeds.hasEnded actor ended hend)
  · have hlast : occurrence.deedOf? actor = some ⟨.markExited, ended⟩ := by
      simpa [deedsOf] using hend
    cases h with
    | did hperform =>
        obtain ⟨-, heq⟩ := Option.ite_some_none_eq_some.mp hlast
        cases heq
        exact hheeds.agrees.hasEnded_of_markExited hperform
    -- nobody has to wait for the end
    | gaveUp hwait hgiveUp =>
        obtain ⟨-, heq⟩ := Option.ite_some_none_eq_some.mp hlast
        cases heq
        cases hgiveUp
    | printed => cases hlast

theorem Lived.heeds {callersDeliver : Prop} {session : Session} {history : History}
    (h : Lived callersDeliver session history) : session.state.core.Heeds history := by
  induction h with
  | new h => exact h.core ▸ Core.heeds_new
  | change h hchange hpermits ih =>
      rcases hchange.effect with ⟨hsame, hcore⟩ | ⟨occurrence, hlast, heffect⟩
      · rw [hsame, hcore]
        exact ih
      · rw [hlast]
        exact heffect.heeds ih

/-! ## Passages -/

/-- What a session has of its debugger. -/
structure Holdings where
  /-- whether commands can be given -/
  commanded : Bool
  /-- whether the session is connected to a debugger -/
  connected : Bool
  inputsClosed : Nat
  terminations : Nat
deriving DecidableEq

def State.holdings (state : State) : Holdings :=
  ⟨state.commanded, state.wire.connected, state.wire.inputsClosed, state.wire.terminations⟩

/-- What a turn does to a session as a whole: nothing, or a step that its actor owes. -/
inductive Passage (state : State) (history : History) (after : State) (later : History) : Prop
  | aside
      (hhistory : later = history ∨
        ∃ occurrence : Occurrence, later = history ++ [occurrence] ∧ ¬ occurrence.IsMilestone)
      (hholdings : after.holdings = state.holdings)
      (hexited : after.core.isExited = state.core.isExited)
      (hidle : state.core.phase ≠ .idle → after.core.phase ≠ .idle)
  | step {actor : Actor} {reaction : Option Fault} {action : Action} {answer : action.Answer}
      (hpermits : (dutyOf actor history).Permits action) (haction : action.IsMilestone)
      (hperform : state.perform reaction action = some (after, answer))
      (hhistory : later = history ++ [.did actor ⟨action, answer⟩])

/-- What does not concern the session as a whole leaves its debugger to it. -/
theorem perform_holdings {reaction : Option Fault} {action : Action} {state next : State}
    {answer : action.Answer} (haction : ¬ action.IsMilestone)
    (h : state.perform reaction action = some (next, answer)) : next.holdings = state.holdings := by
  obtain ⟨⟨written, interrupts, hwire⟩, hcommanded⟩ := perform_wire h
  unfold State.holdings
  rw [hwire, hcommanded]
  cases action <;> first | rfl | exact absurd trivial haction

theorem giveUp_holdings {reaction : Option Fault} {action : Action} {state next : State}
    {answer : action.Answer} (h : state.giveUp reaction action = some (next, answer)) :
    next.holdings = state.holdings := by
  obtain ⟨⟨written, interrupts, hwire⟩, hcommanded⟩ := giveUp_wire h
  unfold State.holdings
  rw [hwire, hcommanded]

theorem not_isMilestone_of_giveUp {reaction : Option Fault} {action : Action} {state next : State}
    {answer : action.Answer} (h : state.giveUp reaction action = some (next, answer)) :
    ¬ action.IsMilestone := by
  cases action with
  | awaitOutput | acquire | awaitResult | settle => exact id
  | _ => cases h

theorem perform_isExited {reaction : Option Fault} {action : Action} {state next : State}
    {answer : action.Answer} (haction : action ≠ .markExited)
    (h : state.perform reaction action = some (next, answer)) :
    next.core.isExited = state.core.isExited := by
  rw [perform_core h]
  cases action with
  | markExited => exact absurd rfl haction
  | beginStart | finishStart | deliver | claimTarget =>
      simp only [Action.onCore, Core.beginStart, Core.finishStart, Core.deliver, Core.claimTarget]
      split <;> rfl
  | awaitResult ticket limit claimed =>
      simp only [Action.onCore, Core.collect?]
      split
      · rfl
      · split <;> rfl
  | _ => rfl

theorem giveUp_isExited {reaction : Option Fault} {action : Action} {state next : State}
    {answer : action.Answer} (h : state.giveUp reaction action = some (next, answer)) :
    next.core.isExited = state.core.isExited := by
  cases action with
  | awaitResult ticket limit claimed =>
      cases h
      cases claimed <;> rfl
  | _ => rw [giveUp_core h (by simp)]

section Runs

variable {host : Host} {ρ α : Type} {program : ρ → Activity α} {c next : Chronicle host ρ α}

/-- An action that may be performed is a step of the session as a whole or leaves it alone. -/
theorem passage_of_perform {actor : Actor} {history : History} {state after : State}
    {reaction : Option Fault} {action : Action} {answer : action.Answer}
    (hpermits : (dutyOf actor history).Permits action)
    (hperform : state.perform reaction action = some (after, answer)) :
    Passage state history after (history ++ [.did actor ⟨action, answer⟩]) := by
  by_cases haction : action.IsMilestone
  · exact .step hpermits haction hperform rfl
  · have hends : action ≠ .markExited := by
      rintro rfl
      exact haction trivial
    refine .aside (.inr ⟨_, rfl, haction⟩) (perform_holdings haction hperform)
      (perform_isExited hends hperform) ?_
    intro hphase
    rw [perform_phase actor hperform]
    exact Occurrence.phaseAfter_ne_idle hphase _

theorem Possible.passage (h : Possible program c) (hprogram : ∀ r, Dutiful (program r))
    (hchange : Change program c next) :
    Passage c.session.state c.history next.session.state next.history := by
  have hpermits {occurrence : Occurrence} (hlast : next.history = c.history ++ [occurrence])
      {actor : Actor} {deed : Deed interface} (hdeed : occurrence.deedOf? actor = some deed) :=
    h.permits_duty hprogram hchange hlast hdeed
  cases hchange with
  | request | router => exact .aside (.inl rfl) rfl rfl id
  | reportGone =>
      refine .aside (.inl rfl) ?_ rfl id
      show State.holdings { c.session.state with wire := c.session.state.wire.reportGone.1 } = _
      unfold State.holdings Wire.reportGone
      split <;> rfl
  | close channel => cases channel <;> exact .aside (.inl rfl) rfl rfl id
  | print channel chunk =>
      have haside : ¬ Occurrence.IsMilestone (.printed channel chunk) := id
      cases channel <;> exact .aside (.inr ⟨_, rfl, haside⟩) rfl rfl id
  | act hcaller hperform => exact passage_of_perform (hpermits rfl (deedOf?_did ..)) hperform
  | @expire caller reaction action rest state answer hcaller hwait hgiveUp =>
      have haside : ¬ Occurrence.IsMilestone (.gaveUp (.caller caller) ⟨action, answer⟩) :=
        not_isMilestone_of_giveUp hgiveUp
      refine .aside (.inr ⟨_, rfl, haside⟩) (giveUp_holdings hgiveUp) (giveUp_isExited hgiveUp) ?_
      intro hphase
      rw [(Effect.gaveUp hwait hgiveUp : Effect _ (.gaveUp (.caller caller) _) state).phase_eq]
      exact Occurrence.phaseAfter_ne_idle hphase _
  | @reader channel action rest state answer htask hperform =>
      rw [Chronicle.session, withReader_state]
      exact passage_of_perform (hpermits rfl (deedOf?_did ..)) hperform
  | @read channel stream reading htask hread =>
      rw [Chronicle.session, withReader_state]
      cases channel <;> exact .aside (.inl rfl) rfl rfl id
  | watcher htask hperform => exact passage_of_perform (hpermits rfl (deedOf?_did ..)) hperform

theorem Possible.heeds (h : Possible program c) : c.session.state.core.Heeds c.history :=
  h.of_effect Core.Heeds Core.heeds_new fun _ _ _ heffect hbefore => heffect.heeds hbefore

theorem Possible.agrees (h : Possible program c) : c.session.state.core.Agrees :=
  h.heeds.agrees

/-- The phase is what the history makes of it. -/
theorem Possible.phase_eq (h : Possible program c) :
    c.session.state.core.phase = c.history.foldl Occurrence.phaseAfter .idle := by
  refine h.of_effect (fun core history =>
    core.phase = history.foldl Occurrence.phaseAfter .idle) rfl ?_
  intro c next occurrence _ _ _ heffect hbefore
  rw [heffect.phase_eq, hbefore, List.foldl_append]
  rfl

/-- What holds of a fresh session, and still does after each passage, holds in every run. -/
theorem Possible.of_passage (h : Possible program c) (hprogram : ∀ r, Dutiful (program r))
    (holds : State → History → Prop) (hfresh : holds {} [])
    (hstep : ∀ {c next : Chronicle host ρ α}, Possible program c →
      Passage c.session.state c.history next.session.state next.history →
      holds c.session.state c.history → holds next.session.state next.history) :
    holds c.session.state c.history := by
  induction h with
  | fresh => exact hfresh
  | turn h turn hturn ih =>
      exact hstep h (h.passage hprogram (Chronicle.change_of_turn? hturn)) ih

/-- What holds after a moment of a run, and still does after each passage, holds from then on. -/
theorem Moment.of_passage {earlier later : Chronicle host ρ α} (h : Moment program c earlier later)
    (hprogram : ∀ r, Dutiful (program r)) (holds : State → History → Prop)
    (hlater : holds later.session.state later.history)
    (hstep : ∀ {state after : State} {history next : History},
      Passage state history after next → holds state history → holds after next) :
    holds c.session.state c.history := by
  obtain ⟨more, hmore⟩ := h.goesOn
  refine (h.possible_later.preserved hmore (fun c => holds c.session.state c.history) hlater ?_).2
  intro c next turn _ hpossible hturn hbefore
  exact hstep (hpossible.passage hprogram (Chronicle.change_of_turn? hturn)) hbefore

/-- Once somebody has wanted to end the session, it has ended. -/
theorem Possible.hasEnded_of_markExited (h : Possible program c) {actor : Actor} {ended : Bool}
    (hend : .did actor ⟨.markExited, ended⟩ ∈ c.history) : c.session.state.core.HasEnded :=
  h.heeds.hasEnded actor ended (mem_deedsOf.mpr (.inl hend))

end Runs

/-! ## Standing -/

/-- What a session has of its debugger while an actor is at work on that. -/
def Duty.holdings? : Duty → Option Holdings
  | begun | refused => some ⟨false, false, 0, 0⟩
  | linked | opening | herald true | closing => some ⟨false, true, 0, 0⟩
  | leaving => some ⟨false, true, 1, 0⟩
  | free | herald false => none

/-- A debugger is released at most once, and only if there is one. -/
structure Holdings.AtMostOnce (holdings : Holdings) : Prop where
  inputsClosed : holdings.inputsClosed ≤ 1
  terminations : holdings.terminations ≤ 1
  unconnected : holdings.connected = false →
    holdings.inputsClosed = 0 ∧ holdings.terminations = 0

theorem Duty.atMostOnce {duty : Duty} {holdings : Holdings} (h : duty.holdings? = some holdings) :
    holdings.AtMostOnce := by
  cases duty with
  | free => cases h
  | herald opens =>
      cases opens <;> cases h
      exact ⟨by decide, by decide, nofun⟩
  | _ =>
      cases h
      exact ⟨by decide, by decide, by decide⟩

/-- Commands are not possible while somebody is at work. -/
theorem Duty.commanded_eq_false {duty : Duty} {holdings : Holdings}
    (h : duty.holdings? = some holdings) : holdings.commanded = false := by
  cases duty with
  | free => cases h
  | herald opens =>
      cases opens <;> cases h
      rfl
  | _ =>
      cases h
      rfl

/-- Who neither opens a session nor releases its debugger is not at work on it. -/
theorem Duty.holdings?_eq_none {duty : Duty} (hopens : ¬ duty.Opens) (hreleases : ¬ duty.Releases) :
    duty.holdings? = none := by
  cases duty with
  | free => rfl
  | herald opens =>
      cases opens with
      | true => exact absurd trivial hopens
      | false => rfl
  | closing | leaving => exact absurd trivial hreleases
  | _ => exact absurd trivial hopens

/-- What a session has of its debugger, and who is at work on that. -/
inductive Standing (state : State) (history : History) : Prop
  /-- it was never connected to one, and nobody is about to -/
  | apart (hduties : ∀ actor, (dutyOf actor history).holdings? = none)
      (hholdings : state.holdings = ⟨false, false, 0, 0⟩)
  /-- its start has come so far that commands are possible -/
  | inUse (hduties : ∀ actor, (dutyOf actor history).holdings? = none)
      (hphase : state.core.phase ≠ .idle) (hholdings : state.holdings = ⟨true, true, 0, 0⟩)
  /-- it was stopped -/
  | released (hduties : ∀ actor, (dutyOf actor history).holdings? = none)
      (hphase : state.core.phase ≠ .idle) (hholdings : state.holdings = ⟨false, true, 1, 1⟩)
  /-- somebody is at work on it, and nobody else -/
  | busy (actor : Actor) (hduty : (dutyOf actor history).holdings? = some state.holdings)
      (hothers : ∀ other, actor ≠ other → (dutyOf other history).holdings? = none)
      (hphase : state.core.phase ≠ .idle)

namespace Standing

variable {state after : State} {history later : History} {actor : Actor}

/-- The standing is kept when no actor begins or ends to be at work. -/
theorem keep (h : Standing state history)
    (hduties : ∀ actor, (dutyOf actor later).holdings? = (dutyOf actor history).holdings?)
    (hholdings : after.holdings = state.holdings)
    (hphase : state.core.phase ≠ .idle → after.core.phase ≠ .idle) : Standing after later := by
  cases h with
  | apart hnone hstate =>
      exact .apart (fun actor => (hduties actor).trans (hnone actor)) (hholdings.trans hstate)
  | inUse hnone hidle hstate =>
      exact .inUse (fun actor => (hduties actor).trans (hnone actor)) (hphase hidle)
        (hholdings.trans hstate)
  | released hnone hidle hstate =>
      exact .released (fun actor => (hduties actor).trans (hnone actor)) (hphase hidle)
        (hholdings.trans hstate)
  | busy actor hduty hothers hidle =>
      refine .busy actor ?_ (fun other hne => (hduties other).trans (hothers other hne))
        (hphase hidle)
      rw [hduties actor, hduty, hholdings]

/-- Who is at work is the only one, and the session has what he needs. -/
theorem of_holdings? (h : Standing state history) {holdings : Holdings}
    (hactor : (dutyOf actor history).holdings? = some holdings) :
    state.holdings = holdings ∧ state.core.phase ≠ .idle ∧
      ∀ other, actor ≠ other → (dutyOf other history).holdings? = none := by
  cases h with
  | apart hduties | inUse hduties | released hduties =>
      rw [hduties actor] at hactor
      cases hactor
  | busy worker hduty hothers hphase =>
      obtain rfl : worker = actor := by
        refine Classical.byContradiction fun hne => ?_
        rw [hothers actor hne] at hactor
        cases hactor
      exact ⟨Option.some.inj (hduty.symm.trans hactor), hphase, hothers⟩

/-- While commands are possible, nobody is at work. -/
theorem of_commanded (h : Standing state history) (hcommanded : state.commanded = true) :
    (∀ actor, (dutyOf actor history).holdings? = none) ∧ state.core.phase ≠ .idle ∧
      state.holdings = ⟨true, true, 0, 0⟩ := by
  have hallowed : state.holdings.commanded = true := hcommanded
  cases h with
  | inUse hnone hphase hholdings => exact ⟨hnone, hphase, hholdings⟩
  | apart _ hholdings | released _ _ hholdings =>
      rw [hholdings] at hallowed
      cases hallowed
  | busy worker hworker =>
      rw [Duty.commanded_eq_false hworker] at hallowed
      cases hallowed

section Steps

variable {reaction : Option Fault} {deed : Deed interface}

/-- An actor that is at work as before leaves who is at work as it was. -/
theorem holdings?_of_same
    (hsame : (dutyOf actor (history ++ [.did actor deed])).holdings? =
      (dutyOf actor history).holdings?) (other : Actor) :
    (dutyOf other (history ++ [.did actor deed])).holdings? = (dutyOf other history).holdings? := by
  by_cases hne : actor = other
  · subst hne
    exact hsame
  · rw [dutyOf_did_ne hne]

/-- An actor that ends to be at work leaves nobody at work. -/
theorem holdings?_of_end (hothers : ∀ other, actor ≠ other → (dutyOf other history).holdings? = none)
    (hend : (dutyOf actor (history ++ [.did actor deed])).holdings? = none) (other : Actor) :
    (dutyOf other (history ++ [.did actor deed])).holdings? = none := by
  by_cases hne : actor = other
  · subst hne
    exact hend
  · rw [dutyOf_did_ne hne, hothers other hne]

/-- An actor begins to be at work, or goes on. -/
theorem of_begin (hothers : ∀ other, actor ≠ other → (dutyOf other history).holdings? = none)
    (hduty : (dutyOf actor (history ++ [.did actor deed])).holdings? = some after.holdings)
    (hphase : after.core.phase ≠ .idle) : Standing after (history ++ [.did actor deed]) := by
  refine .busy actor hduty ?_ hphase
  intro other hne
  rw [dutyOf_did_ne hne]
  exact hothers other hne

/-- The standing is kept by a step that changes neither who is at work nor what there is of the
debugger. -/
theorem keep_step (h : Standing state history) {action : Action} {answer : action.Answer}
    (hsame : (dutyOf actor (history ++ [.did actor ⟨action, answer⟩])).holdings? =
      (dutyOf actor history).holdings?)
    (hperform : state.perform reaction action = some (after, answer))
    (hholdings : after.holdings = state.holdings) :
    Standing after (history ++ [.did actor ⟨action, answer⟩]) := by
  refine h.keep (holdings?_of_same hsame) hholdings ?_
  intro hphase
  rw [perform_phase actor hperform]
  exact Occurrence.phaseAfter_ne_idle hphase _

/-- Who is at work goes on with it. -/
theorem onward (h : Standing state history) {action : Action} {answer : action.Answer}
    {duty : Duty} (hduty : dutyOf actor history = duty) {held next : Holdings}
    (hheld : duty.holdings? = some held)
    (hnext : (duty.after action answer).holdings? = some next)
    (hafter : state.holdings = held → after.holdings = next)
    (hphase : after.core.phase = state.core.phase) :
    Standing after (history ++ [.did actor ⟨action, answer⟩]) := by
  rw [← hduty] at hheld hnext
  obtain ⟨hholdings, hidle, hothers⟩ := h.of_holdings? hheld
  refine of_begin hothers ?_ (hphase ▸ hidle)
  rw [dutyOf_did, hnext, hafter hholdings]

/-- Who is at work ends it, and nobody is at work then. -/
theorem finished (h : Standing state history) (action : Action) (answer : action.Answer)
    {duty : Duty} (hduty : dutyOf actor history = duty) {held : Holdings}
    (hheld : duty.holdings? = some held)
    (hend : (duty.after action answer).holdings? = none) :
    (∀ other, (dutyOf other (history ++ [.did actor ⟨action, answer⟩])).holdings? = none) ∧
      state.core.phase ≠ .idle ∧ state.holdings = held := by
  rw [← hduty] at hheld hend
  obtain ⟨hholdings, hidle, hothers⟩ := h.of_holdings? hheld
  refine ⟨holdings?_of_end hothers ?_, hidle, hholdings⟩
  rw [dutyOf_did, hend]

theorem of_beginStart (h : Standing state history) {idle : Bool}
    (hperform : state.perform reaction .beginStart = some (after, idle)) :
    Standing after (history ++ [.did actor ⟨.beginStart, idle⟩]) := by
  have hresult := hperform
  simp only [State.perform, State.askCore, Core.beginStart] at hresult
  split at hresult <;> cases hresult
  · rename_i hidle
    have hbegun : dutyOf actor (history ++ [.did actor ⟨.beginStart, true⟩]) = .begun := by
      rw [dutyOf_did]
      rfl
    cases h with
    | apart hnone hholdings =>
        refine of_begin (fun other _ => hnone other) ?_ fun hsame => by cases hsame
        rw [hbegun]
        exact congrArg some hholdings.symm
    | inUse _ hphase | released _ hphase | busy _ _ _ hphase => exact absurd hidle hphase
  · refine h.keep_step ?_ hperform rfl
    rw [dutyOf_did]
    rfl

theorem of_launch (h : Standing state history) {fault : Option Fault}
    (hduty : dutyOf actor history = .begun)
    (hperform : state.perform reaction .launch = some (after, fault)) :
    Standing after (history ++ [.did actor ⟨.launch, fault⟩]) := by
  cases reaction with
  | some fault =>
      cases hperform
      exact h.onward hduty rfl rfl id rfl
  | none =>
      cases hperform
      refine h.onward hduty rfl rfl (fun hholdings => ?_) rfl
      obtain ⟨hcommanded, -, hclosed, hterminated⟩ := Holdings.mk.inj hholdings
      simp [State.holdings, hcommanded, hclosed, hterminated]

theorem of_connect (h : Standing state history) {answer : Unit}
    (hduty : dutyOf actor history = .begun)
    (hperform : state.perform reaction .connect = some (after, answer)) :
    Standing after (history ++ [.did actor ⟨.connect, answer⟩]) := by
  cases hperform
  refine h.onward hduty rfl rfl (fun hholdings => ?_) rfl
  obtain ⟨hcommanded, -, hclosed, hterminated⟩ := Holdings.mk.inj hholdings
  simp [State.holdings, hcommanded, hclosed, hterminated]

theorem of_enableCommands (h : Standing state history) {answer : Unit}
    (hduty : dutyOf actor history = .opening)
    (hperform : state.perform reaction .enableCommands = some (after, answer)) :
    Standing after (history ++ [.did actor ⟨.enableCommands, answer⟩]) := by
  obtain ⟨hnone, hphase, hholdings⟩ := h.finished .enableCommands answer hduty rfl rfl
  cases hperform
  obtain ⟨-, hconnected, hclosed, hterminated⟩ := Holdings.mk.inj hholdings
  exact .inUse hnone hphase (by simp [State.holdings, hconnected, hclosed, hterminated])

theorem of_disableCommands (h : Standing state history) {allowed : Bool}
    (hperform : state.perform reaction .disableCommands = some (after, allowed)) :
    Standing after (history ++ [.did actor ⟨.disableCommands, allowed⟩]) := by
  have hresult := hperform
  cases hresult
  cases hcommanded : state.commanded with
  | true =>
      have hclosing : dutyOf actor (history ++ [.did actor ⟨.disableCommands, true⟩]) =
          .closing := by
        rw [dutyOf_did]
        rfl
      obtain ⟨hnone, hphase, hholdings⟩ := h.of_commanded hcommanded
      refine of_begin (fun other _ => hnone other) ?_ hphase
      rw [hclosing]
      obtain ⟨-, hconnected, hclosed, hterminated⟩ := Holdings.mk.inj hholdings
      simp [State.holdings, Duty.holdings?, hconnected, hclosed, hterminated]
  | false =>
      rw [hcommanded] at hperform
      refine h.keep_step ?_ hperform ?_
      · rw [dutyOf_did]
        rfl
      · simp [State.holdings, hcommanded]

theorem of_markExited (h : Standing state history) {ended : Bool}
    (hduty : dutyOf actor history = .free ∨ dutyOf actor history = .refused ∨
      dutyOf actor history = .opening)
    (hperform : state.perform reaction .markExited = some (after, ended)) :
    Standing after (history ++ [.did actor ⟨.markExited, ended⟩]) := by
  have hholdings : after.holdings = state.holdings := by
    have hresult := hperform
    cases hresult
    rfl
  rcases hduty with hduty | hduty | hduty
  · refine h.keep_step ?_ hperform hholdings
    rw [dutyOf_did, hduty]
    cases ended <;> rfl
  -- the debugger could not be launched, and nobody goes on with the start
  · obtain ⟨hnone, -, hstate⟩ := h.finished .markExited ended hduty rfl rfl
    exact .apart hnone (hholdings.trans hstate)
  · refine h.keep_step ?_ hperform hholdings
    rw [dutyOf_did, hduty]
    cases ended <;> rfl

theorem of_closeInput (h : Standing state history) {answer : Unit}
    (hduty : dutyOf actor history = .closing)
    (hperform : state.perform reaction .closeInput = some (after, answer)) :
    Standing after (history ++ [.did actor ⟨.closeInput, answer⟩]) := by
  cases hperform
  refine h.onward hduty rfl rfl (fun hholdings => ?_) rfl
  obtain ⟨hcommanded, hconnected, hclosed, hterminated⟩ := Holdings.mk.inj hholdings
  simp [State.holdings, hcommanded, hconnected, hclosed, hterminated]

theorem of_terminate (h : Standing state history) {answer : Unit}
    (hduty : dutyOf actor history = .leaving)
    (hperform : state.perform reaction .terminate = some (after, answer)) :
    Standing after (history ++ [.did actor ⟨.terminate, answer⟩]) := by
  obtain ⟨hnone, hphase, hholdings⟩ := h.finished .terminate answer hduty rfl rfl
  cases hperform
  obtain ⟨hcommanded, hconnected, hclosed, hterminated⟩ := Holdings.mk.inj hholdings
  refine .released hnone hphase ?_
  simp [State.holdings, hcommanded, hconnected, hclosed, hterminated]

end Steps

/-- Whatever happens preserves the standing. -/
theorem of_passage (h : Standing state history) (hpassage : Passage state history after later) :
    Standing after later := by
  cases hpassage with
  | aside hhistory hholdings _ hphase =>
      refine h.keep (fun actor => ?_) hholdings hphase
      rw [dutyOf_aside hhistory]
  | @step actor reaction action answer hpermits haction hperform hhistory =>
      subst hhistory
      cases action with
      | beginStart => exact h.of_beginStart hperform
      | launch => exact h.of_launch (Duty.permits_launch.mp hpermits) hperform
      | connect => exact h.of_connect (Duty.permits_connect.mp hpermits) hperform
      | watchExit =>
          have hduty := Duty.permits_watchExit.mp hpermits
          refine h.keep_step ?_ hperform ?_
          · rw [dutyOf_did, hduty]
            rfl
          · cases hperform
            unfold State.holdings Wire.watch
            split <;> rfl
      | enableCommands =>
          exact h.of_enableCommands (Duty.permits_enableCommands.mp hpermits) hperform
      | disableCommands =>
          exact h.of_disableCommands hperform
      | markExited => exact h.of_markExited (Duty.permits_markExited.mp hpermits) hperform
      | closeInput => exact h.of_closeInput (Duty.permits_closeInput.mp hpermits) hperform
      | terminate => exact h.of_terminate (Duty.permits_terminate.mp hpermits) hperform
      | publish event =>
          obtain rfl : event = .exited := haction
          obtain ⟨opens, hduty⟩ := Duty.permits_publish_exited.mp hpermits
          refine h.keep_step ?_ hperform ?_
          · rw [dutyOf_did, hduty]
            cases opens <;> rfl
          · cases hperform
            rfl
      | _ => exact absurd haction id

/-- The input of a debugger is closed at most once, and its process terminated at most once, and
neither unless the session is connected to it. -/
theorem at_most_once (h : Standing state history) : state.holdings.AtMostOnce := by
  cases h with
  | apart _ hholdings | inUse _ _ hholdings | released _ _ hholdings =>
      rw [hholdings]
      exact ⟨by decide, by decide, by decide⟩
  | busy actor hduty => exact Duty.atMostOnce hduty

/-- When nobody is at work and commands are not possible, the debugger of the session was released,
if there is one. -/
theorem released_of_none (h : Standing state history)
    (hnone : ∀ actor, (dutyOf actor history).holdings? = none)
    (hcommanded : state.commanded = false) :
    state.wire.inputsClosed = state.wire.connected.toNat ∧
      state.wire.terminations = state.wire.connected.toNat := by
  cases h with
  | apart _ hholdings | released _ _ hholdings =>
      obtain ⟨-, hconnected, hclosed, hterminated⟩ := Holdings.mk.inj hholdings
      rw [hconnected, hclosed, hterminated]
      exact ⟨rfl, rfl⟩
  | inUse _ _ hholdings =>
      obtain ⟨hallowed, -⟩ := Holdings.mk.inj hholdings
      rw [hcommanded] at hallowed
      cases hallowed
  | busy actor hduty =>
      rw [hnone actor] at hduty
      cases hduty

end Standing

theorem Possible.standing {host : Host} {ρ α : Type} {program : ρ → Activity α}
    {c : Chronicle host ρ α} (h : Possible program c) (hprogram : ∀ r, Dutiful (program r)) :
    Standing c.session.state c.history :=
  h.of_passage hprogram Standing (.apart (fun _ => rfl) rfl) fun _ hpassage hstanding =>
    hstanding.of_passage hpassage

/-- A session that is connected to a debugger remains so. -/
theorem Passage.connected {state after : State} {history later : History}
    (h : Passage state history after later) (hconnected : state.wire.connected = true) :
    after.wire.connected = true := by
  cases h with
  | aside _ hholdings =>
      obtain ⟨-, hsame, -⟩ := Holdings.mk.inj hholdings
      exact hsame.trans hconnected
  | @step actor reaction action answer _ _ hperform _ =>
      obtain ⟨⟨written, interrupts, hwire⟩, -⟩ := perform_wire hperform
      rw [hwire]
      cases action with
      | launch => cases reaction <;> simp [Action.onWire, hconnected]
      | watchExit =>
          simp only [Action.onWire, Wire.watch]
          split <;> exact hconnected
      | connect => rfl
      | _ => exact hconnected

/-! ## Before a session is connected -/

/-- Nothing goes on in the background. -/
structure Dormant (session : Session) : Prop where
  reader : ∀ channel, session.readerTask channel = .done ()
  watcher : session.watcherTask = .done ()
  unwatched : session.state.wire.watched = false

section Runs

variable {host : Host} {ρ α : Type} {program : ρ → Activity α} {c : Chronicle host ρ α}

/-- Only who has connected a session asks to be told when the process is gone. -/
theorem perform_watched {reaction : Option Fault} {action : Action} {state after : State}
    {answer : action.Answer} {history : History} {actor : Actor} (h : Standing state history)
    (hpermits : (dutyOf actor history).Permits action) (hunconnected : state.wire.connected = false)
    (hperform : state.perform reaction action = some (after, answer)) :
    after.wire.watched = state.wire.watched := by
  obtain ⟨⟨written, interrupts, hwire⟩, -⟩ := perform_wire hperform
  rw [hwire]
  cases action with
  | watchExit =>
      have hlinked : (dutyOf actor history).holdings? = some ⟨false, true, 0, 0⟩ := by
        rw [Duty.permits_watchExit.mp hpermits]
        rfl
      obtain ⟨hholdings, -⟩ := h.of_holdings? hlinked
      obtain ⟨-, hconnected, -⟩ := Holdings.mk.inj hholdings
      rw [hunconnected] at hconnected
      cases hconnected
  | launch => cases reaction <;> rfl
  | _ => rfl

/-- Nothing goes on in the background of a session that is not connected. -/
theorem Possible.dormant (h : Possible program c) (hprogram : ∀ r, Dutiful (program r))
    (hunconnected : c.session.state.wire.connected = false) : Dormant c.session := by
  induction h with
  | fresh => exact ⟨fun channel => by cases channel <;> rfl, rfl, rfl⟩
  | @turn c next h turn hturn ih =>
      have hchange := Chronicle.change_of_turn? hturn
      have hbefore : c.session.state.wire.connected = false := by
        cases hconnected : c.session.state.wire.connected with
        | false => rfl
        | true =>
            rw [(h.passage hprogram hchange).connected hconnected] at hunconnected
            cases hunconnected
      obtain ⟨hreader, hwatcher, hunwatched⟩ := ih hbefore
      cases hchange with
      | request | router => exact ⟨hreader, hwatcher, hunwatched⟩
      | print channel | close channel =>
          refine ⟨hreader, hwatcher, ?_⟩
          cases channel <;> exact hunwatched
      | @act caller reaction action rest state answer hcaller hperform =>
          have hpermits : (dutyOf (.caller caller) c.history).Permits action :=
            h.permits_duty hprogram (.act hcaller hperform) rfl (deedOf?_did ..)
          refine ⟨hreader, hwatcher, ?_⟩
          exact (perform_watched (h.standing hprogram) hpermits hbefore hperform).trans hunwatched
      | expire hcaller hwait hgiveUp =>
          refine ⟨hreader, hwatcher, ?_⟩
          obtain ⟨⟨written, interrupts, hwire⟩, -⟩ := giveUp_wire hgiveUp
          exact (congrArg Wire.watched hwire).trans hunwatched
      | @reader channel action rest state answer htask =>
          rw [hreader channel] at htask
          cases htask
      | read htask hread hconnected =>
          rw [hbefore] at hconnected
          cases hconnected
      | watcher htask =>
          rw [hwatcher] at htask
          cases htask
      | reportGone =>
          refine ⟨hreader, ?_, ?_⟩
          · show (if c.session.state.wire.reportGone.2 then finish else
              c.session.watcherTask) = .done ()
            unfold Wire.reportGone
            split <;> simp [hunwatched, hwatcher]
          · show c.session.state.wire.reportGone.1.watched = false
            unfold Wire.reportGone
            split
            · exact hunwatched
            · rfl

end Runs

/-! ## Shut sessions -/

/-- Commands are not possible, and nobody is about to change that. -/
structure Shut (state : State) (history : History) : Prop where
  commanded : state.commanded = false
  phase : state.core.phase ≠ .idle
  unopened : ∀ actor, ¬ (dutyOf actor history).Opens

/-- Who opens a session is at work on it. -/
theorem Duty.opens_of_holdings? {duty : Duty} (h : duty.holdings? = none) : ¬ duty.Opens := by
  cases duty with
  | free => exact id
  | herald opens =>
      cases opens with
      | true => cases h
      | false => exact id
  | _ => cases h

/-- Who could not launch a debugger leaves the session shut, and without one. -/
theorem Standing.shut_of_refused {state after : State} {history : History} {actor : Actor}
    {reaction : Option Fault} {ended : Bool} (h : Standing state history)
    (hduty : dutyOf actor history = .refused)
    (hperform : state.perform reaction .markExited = some (after, ended)) :
    Shut after (history ++ [.did actor ⟨.markExited, ended⟩]) ∧ after.wire.connected = false := by
  have hrefused : (dutyOf actor history).holdings? = some ⟨false, false, 0, 0⟩ := by
    rw [hduty]
    rfl
  obtain ⟨hholdings, hphase, hidle⟩ := h.of_holdings? hrefused
  obtain ⟨hcommanded, hconnected, -⟩ := Holdings.mk.inj hholdings
  have hsame := hperform
  cases hsame
  refine ⟨⟨hcommanded, ?_, fun other => ?_⟩, hconnected⟩
  · rw [perform_phase actor hperform]
    exact Occurrence.phaseAfter_ne_idle hphase _
  · by_cases hne : actor = other
    · subst hne
      rw [dutyOf_did, hduty]
      exact id
    · rw [dutyOf_did_ne hne]
      exact Duty.opens_of_holdings? (hidle other hne)

/-- With nobody about to open a session, whatever happens does not make commands possible, and leaves
the session with the debugger that it has. -/
theorem Passage.of_unopened {state after : State} {history later : History}
    (h : Passage state history after later)
    (hunopened : ∀ actor, ¬ (dutyOf actor history).Opens) :
    (state.commanded = false → after.commanded = false) ∧
      after.wire.connected = state.wire.connected := by
  cases h with
  | aside hhistory hholdings hexited hphase =>
      obtain ⟨hcommanded, hconnected, -⟩ := Holdings.mk.inj hholdings
      exact ⟨hcommanded.trans, hconnected⟩
  | @step actor reaction action answer hpermits haction hperform hhistory =>
      have hopen : ∀ duty : Duty, duty.Opens → dutyOf actor history ≠ duty := by
        rintro _ hopens rfl
        exact hunopened actor hopens
      obtain ⟨⟨written, interrupts, hwire⟩, hcommanded⟩ := perform_wire hperform
      constructor
      · intro hforbidden
        rw [hcommanded]
        cases action with
        | enableCommands => exact absurd (Duty.permits_enableCommands.mp hpermits) (hopen _ trivial)
        | disableCommands => rfl
        | _ => exact hforbidden
      · rw [hwire]
        cases action with
        | launch => exact absurd (Duty.permits_launch.mp hpermits) (hopen _ trivial)
        | connect => exact absurd (Duty.permits_connect.mp hpermits) (hopen _ trivial)
        | watchExit => exact absurd (Duty.permits_watchExit.mp hpermits) (hopen _ trivial)
        | _ => rfl

/-- A session that is shut stays so, and its debugger remains the one it was. -/
theorem Shut.of_passage {state after : State} {history later : History} (h : Shut state history)
    (hpassage : Passage state history after later) :
    Shut after later ∧ after.wire.connected = state.wire.connected := by
  obtain ⟨hcommanded, hconnected⟩ := hpassage.of_unopened h.unopened
  refine ⟨?_, hconnected⟩
  cases hpassage with
  | aside hhistory hholdings _ hphase =>
      refine ⟨hcommanded h.commanded, hphase h.phase, ?_⟩
      intro actor
      rw [dutyOf_aside hhistory]
      exact h.unopened actor
  | @step actor reaction action answer hpermits haction hperform hhistory =>
      subst hhistory
      have hbegin : (⟨action, answer⟩ : Deed interface) ≠ ⟨.beginStart, true⟩ := by
        rintro ⟨⟩
        simp [State.perform, State.askCore, Core.beginStart, h.phase] at hperform
      refine ⟨hcommanded h.commanded, ?_, ?_⟩
      · rw [perform_phase actor hperform]
        exact Occurrence.phaseAfter_ne_idle h.phase _
      · intro other
        by_cases hne : actor = other
        · subst hne
          rw [dutyOf_did]
          exact Duty.not_opens_after (h.unopened actor) hpermits answer hbegin
        · rw [dutyOf_did_ne hne]
          exact h.unopened other

end DebugBridge.Session
