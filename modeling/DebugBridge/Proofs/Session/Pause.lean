import DebugBridge.Proofs.Session.Startup

/-!
# A pause sends as many interrupts as it takes

Where commands and execution exclude each other, a target is stopped by interrupts.  A pause looks
for the end of the session, and then makes attempts: each of them sees what has become of the
target, and if it still executes, sends one more interrupt as long as there is one left.

## Strategy

* `Effect.interrupt_saw` and `Effect.settle_saw` say what an attempt answers, and all that it
  changes.  From them follows which answers there are (`Fits`).
* `PauseDid` is how far a pause has come: after so many interrupts it either goes on or is decided
  by the next attempt.  The program of a pause does nothing else (`interrupt_did`, by induction on
  the attempts that are left).

## Main statements

* `PauseDid.interrupts_le`: a pause does not send more interrupts than it may.
* `pause_interrupts_until_decided`: what a pause does, what it returns, and what it leaves alone.
-/

namespace DebugBridge.Session

/-! ## Attempts -/

/-- The target executes, to the knowledge of a session to which this has happened. -/
def Executing (history : History) : Prop :=
  ((history.filterMap Occurrence.verdict?).getLast?).getD false = true

/-- How many interrupts an attempt sends. -/
def Attempt.interrupts : Attempt → Nat
  | sent | refused _ => 1
  | notRunning | exited | exhausted => 0

/-- What an attempt has seen: `ended` says whether the session has ended, `executes` whether the
target executes, and `more` whether an interrupt is left. -/
structure Attempt.Saw (ended executes : Prop) (more : Bool) (attempt : Attempt) : Prop where
  exited : attempt = .exited ↔ ended
  notRunning : attempt = .notRunning ↔ ¬ ended ∧ ¬ executes
  interrupted : attempt.interrupts = 1 ↔ ¬ ended ∧ executes ∧ more = true
  exhausted : attempt = .exhausted ↔ ¬ ended ∧ executes ∧ more = false

/-- The attempt that a deed is. -/
def attempt? : Deed interface → Option Attempt
  | ⟨.interrupt _, attempt⟩ | ⟨.settle _ _, attempt⟩ => some attempt
  | _ => none

/-- How many interrupts a deed sends. -/
def interruptsOf (deed : Deed interface) : Nat :=
  (attempt? deed).elim 0 Attempt.interrupts

/-- The state after so many more interrupts. -/
def State.interrupted (state : State) (count : Nat) : State :=
  { state with wire := { state.wire with interrupts := state.wire.interrupts + count } }

/-- An attempt at a target that executes sends an interrupt if one is left. -/
theorem attempt_saw {reaction : Option Fault} {more : Bool} {state after : State}
    {attempt : Attempt} (h : state.attempt reaction more = (after, attempt)) {ended executes : Prop}
    (hended : ¬ ended) (hexecutes : executes) :
    attempt.Saw ended executes more ∧ after = state.interrupted attempt.interrupts := by
  cases more with
  | false =>
      cases h
      exact ⟨by constructor <;> simp [hended, hexecutes, Attempt.interrupts], rfl⟩
  | true =>
      cases reaction <;> cases h
      · exact ⟨by constructor <;> simp [hended, hexecutes, Attempt.interrupts], rfl⟩
      · exact ⟨by constructor <;> simp [hended, hexecutes, Attempt.interrupts], rfl⟩

section Effects

variable {state after : State} {occurrence : Occurrence} {actor : Actor} {more : Bool}
  {attempt : Attempt}

/-- A look for the end changes nothing. -/
theorem Effect.eq_of_isExited (h : Effect state occurrence after) {exited : Bool}
    (hdeed : occurrence.deedOf? actor = some ⟨.isExited, exited⟩) : after = state := by
  cases h with
  | did hperform =>
      obtain ⟨-, hdeed⟩ := Option.ite_some_none_eq_some.mp hdeed
      cases hdeed
      cases hperform
      rfl
  | gaveUp hwait hgiveUp =>
      obtain ⟨-, hdeed⟩ := Option.ite_some_none_eq_some.mp hdeed
      cases hdeed
      cases hgiveUp
  | printed => cases hdeed

/-- What the first attempt sees, and all that it changes. -/
theorem Effect.interrupt_saw (h : Effect state occurrence after)
    (hdeed : occurrence.deedOf? actor = some ⟨.interrupt more, attempt⟩) :
    attempt.Saw False (state.core.isRunning = true) more ∧
      after = state.interrupted attempt.interrupts := by
  cases h with
  | did hperform =>
      obtain ⟨-, hdeed⟩ := Option.ite_some_none_eq_some.mp hdeed
      cases hdeed
      simp only [State.perform] at hperform
      split at hperform
      · rename_i hrunning
        exact attempt_saw (Option.some.inj hperform) id hrunning
      · rename_i hrunning
        cases hperform
        exact ⟨by constructor <;> simp [hrunning, Attempt.interrupts], rfl⟩
  | gaveUp hwait hgiveUp =>
      obtain ⟨-, hdeed⟩ := Option.ite_some_none_eq_some.mp hdeed
      cases hdeed
      cases hgiveUp
  | printed => cases hdeed

/-- What a later attempt sees, and all that it changes.  As long as the session goes on and the
target executes, it has to wait until its time is over. -/
theorem Effect.settle_saw (h : Effect state occurrence after) {interval : Nat}
    (hdeed : occurrence.deedOf? actor = some ⟨.settle interval more, attempt⟩) :
    attempt.Saw (state.core.phase = .exited) (state.core.isRunning = true) more ∧
      after = state.interrupted attempt.interrupts ∧
      (state.core.phase ≠ .exited → state.core.isRunning = true →
        occurrence = .gaveUp actor ⟨.settle interval more, attempt⟩) := by
  cases h with
  | did hperform =>
      obtain ⟨hactor, hsame⟩ := Option.ite_some_none_eq_some.mp hdeed
      cases hsame
      simp only [State.perform] at hperform
      split at hperform
      · rename_i hexited
        cases hperform
        exact ⟨by constructor <;> simp [hexited, Attempt.interrupts], rfl,
          fun hgoesOn => absurd hexited hgoesOn⟩
      · rename_i hexited
        split at hperform
        · rename_i hrest
          cases hperform
          have hrunning : state.core.isRunning = false := by
            simp only [Core.isAtRest, Bool.and_eq_true] at hrest
            simpa [Core.isRunning] using hrest.1
          exact ⟨by constructor <;> simp [hexited, hrunning, Attempt.interrupts], rfl,
            fun _ hexecutes => by simp [hrunning] at hexecutes⟩
        · cases hperform
  | gaveUp hwait hgiveUp =>
      obtain ⟨hactor, hsame⟩ := Option.ite_some_none_eq_some.mp hdeed
      cases hsame
      have hexited : state.core.phase ≠ .exited := by
        intro hexited
        simp [State.perform, hexited] at hwait
      simp only [State.giveUp] at hgiveUp
      split at hgiveUp
      · rename_i hrunning
        obtain ⟨hsaw, hafter⟩ := attempt_saw (Option.some.inj hgiveUp) hexited hrunning
        exact ⟨hsaw, hafter, fun _ _ => hactor ▸ rfl⟩
      · rename_i hrunning
        cases hgiveUp
        exact ⟨by constructor <;> simp [hexited, hrunning, Attempt.interrupts], rfl,
          fun _ _ => hactor ▸ rfl⟩
  | printed => cases hdeed

end Effects

/-- The answer is one that an attempt can get. -/
def Fits : Deed interface → Prop
  | ⟨.interrupt more, attempt⟩ => ∃ executes, attempt.Saw False executes more
  | ⟨.settle _ more, attempt⟩ => ∃ ended executes, attempt.Saw ended executes more
  | _ => True

theorem Attempt.Saw.more_of_interrupted {ended executes : Prop} {more : Bool} {attempt : Attempt}
    (h : attempt.Saw ended executes more) (hinterrupted : attempt.interrupts = 1) : more = true :=
  (h.interrupted.mp hinterrupted).2.2

theorem Attempt.Saw.more_of_exhausted {ended executes : Prop} {more : Bool}
    (h : Attempt.exhausted.Saw ended executes more) : more = false :=
  (h.exhausted.mp rfl).2.2

section Runs

variable {host : Host} {plan : Plan} {c : Chronicle host Request Reply} {past future : History}
  {occurrence : Occurrence} {actor : Actor} {more : Bool} {attempt : Attempt}

theorem Possible.executing_iff (h : Possible (Request.program plan) c) :
    c.session.state.core.isRunning = true ↔ Executing c.history := by
  rw [h.isRunning_eq, Executing]

theorem Possible.phase_iff (h : Possible (Request.program plan) c) :
    c.session.state.core.phase = .exited ↔ Ended c.history := by
  rw [← h.isExited_iff, h.agrees]
  simp

theorem Possible.interrupt_saw (h : Possible (Request.program plan) c)
    (hhistory : c.history = past ++ occurrence :: future)
    (hdeed : occurrence.deedOf? actor = some ⟨.interrupt more, attempt⟩) :
    attempt.Saw False (Executing past) more := by
  obtain ⟨earlier, after, hearlier, rfl, heffect, -⟩ :=
    h.exists_effect (Request.disciplined plan) hhistory
  rw [← hearlier.executing_iff]
  exact (heffect.interrupt_saw hdeed).1

theorem Possible.settle_saw (h : Possible (Request.program plan) c)
    (hhistory : c.history = past ++ occurrence :: future) {interval : Nat}
    (hdeed : occurrence.deedOf? actor = some ⟨.settle interval more, attempt⟩) :
    attempt.Saw (Ended past) (Executing past) more ∧ (¬ Ended past → Executing past →
      occurrence = .gaveUp actor ⟨.settle interval more, attempt⟩) := by
  obtain ⟨earlier, after, hearlier, rfl, heffect, -⟩ :=
    h.exists_effect (Request.disciplined plan) hhistory
  rw [← hearlier.executing_iff, ← hearlier.phase_iff]
  obtain ⟨hsaw, -, hlate⟩ := heffect.settle_saw hdeed
  exact ⟨hsaw, hlate⟩

/-- All answers are such that an attempt can get. -/
theorem Possible.fits (h : Possible (Request.program plan) c) (actor : Actor) :
    ∀ deed ∈ deedsOf actor c.history, Fits deed := by
  intro deed hdeed
  obtain ⟨first, rest, hdeeds⟩ := List.append_of_mem hdeed
  obtain ⟨past, occurrence, future, hhistory, hat, -, -⟩ := exists_split_of_deedsOf hdeeds
  obtain ⟨action, answer⟩ := deed
  cases action with
  | interrupt more => exact ⟨_, h.interrupt_saw hhistory hat⟩
  | settle interval more => exact ⟨_, _, (h.settle_saw hhistory hat).1⟩
  | _ => trivial

end Runs

/-! ## The course of a pause -/

/-- The attempt of a pause that has sent so many interrupts. -/
def attemptDeed (config : Config) (attempt : Attempt) : (sent : Nat) → Deed interface
  | 0 => ⟨.interrupt (config.pauseAttempts != 0), attempt⟩
  | sent + 1 => ⟨.settle config.pauseInterval (config.pauseAttempts - (sent + 1) != 0), attempt⟩

/-- What a pause has done that has sent so many interrupts. -/
def interrupting (config : Config) : (sent : Nat) → List (Deed interface)
  | 0 => [⟨.isExited, false⟩]
  | sent + 1 => interrupting config sent ++ [attemptDeed config .sent sent]

/-- After so many interrupts, the next attempt decides on the outcome of a pause. -/
inductive Decided (config : Config) : (sent : Nat) → Attempt → Outcome → Prop
  | idle : Decided config 0 .notRunning notRunning
  | paused (sent : Nat) : Decided config (sent + 1) .notRunning paused
  | exited (sent : Nat) : Decided config (sent + 1) .exited .sessionExited
  | refused {sent : Nat} (h : sent < config.pauseAttempts) (fault : Fault) :
      Decided config sent (.refused fault) (.ofMessage .error fault.message)
  | exhausted : Decided config config.pauseAttempts .exhausted pauseFailed

/-- What a pause has done so far, and its outcome once it is over. -/
inductive PauseDid (config : Config) : List (Deed interface) → Option Outcome → Prop
  | begun : PauseDid config [] none
  | exited : PauseDid config [⟨.isExited, true⟩] (some .sessionExited)
  | going (sent : Nat) (h : sent ≤ config.pauseAttempts) :
      PauseDid config (interrupting config sent) none
  | decided (sent : Nat) {attempt : Attempt} {outcome : Outcome}
      (h : sent ≤ config.pauseAttempts) (hdecided : Decided config sent attempt outcome) :
      PauseDid config (interrupting config sent ++ [attemptDeed config attempt sent])
        (some outcome)

section Course

variable {config : Config} {deeds : List (Deed interface)} {left : Activity Outcome}

/-- The attempt with so many attempts left after it. -/
theorem attemptDeed_succ {sent attempts : Nat} (htotal : sent + 1 + attempts = config.pauseAttempts)
    (attempt : Attempt) : attemptDeed config attempt (sent + 1) =
      ⟨.settle config.pauseInterval (attempts != 0), attempt⟩ := by
  rw [attemptDeed, ← htotal, Nat.add_sub_cancel_left]

theorem PauseDid.of_decided {sent attempts : Nat}
    (htotal : sent + 1 + attempts = config.pauseAttempts) {attempt : Attempt} {outcome : Outcome}
    (hdecided : Decided config (sent + 1) attempt outcome) : PauseDid config
      (interrupting config (sent + 1) ++
        [⟨.settle config.pauseInterval (attempts != 0), attempt⟩]) (some outcome) :=
  attemptDeed_succ htotal attempt ▸ .decided (sent + 1) (by omega) hdecided

/-- What a pause does that has sent an interrupt and has so many attempts left. -/
theorem settle_did (sent attempts : Nat) (htotal : sent + 1 + attempts = config.pauseAttempts)
    (hleads : (settle config.pauseInterval attempts).Leads deeds left)
    (hfits : ∀ deed ∈ deeds, Fits deed) :
    PauseDid config (interrupting config (sent + 1) ++ deeds) left.value? := by
  induction attempts generalizing sent deeds with
  | zero =>
      rcases Program.leads_act.mp hleads with ⟨rfl, rfl⟩ | ⟨attempt, more, rfl, hmore⟩
      · rw [List.append_nil]
        exact .going _ (by omega)
      obtain ⟨ended, executes, hsaw⟩ := hfits _ List.mem_cons_self
      obtain ⟨rfl, rfl⟩ := Program.leads_done.mp hmore
      cases attempt with
      | notRunning => exact .of_decided htotal (.paused sent)
      | exited => exact .of_decided htotal (.exited sent)
      | exhausted => exact .of_decided htotal (htotal ▸ .exhausted)
      -- without an attempt left, no interrupt is sent
      | refused | sent => cases hsaw.more_of_interrupted rfl
  | succ attempts ih =>
      rcases Program.leads_act.mp hleads with ⟨rfl, rfl⟩ | ⟨attempt, more, rfl, hmore⟩
      · rw [List.append_nil]
        exact .going _ (by omega)
      obtain ⟨⟨ended, executes, hsaw⟩, hothers⟩ := List.forall_mem_cons.mp hfits
      cases attempt with
      | notRunning =>
          obtain ⟨rfl, rfl⟩ := Program.leads_done.mp hmore
          exact .of_decided htotal (.paused sent)
      | exited =>
          obtain ⟨rfl, rfl⟩ := Program.leads_done.mp hmore
          exact .of_decided htotal (.exited sent)
      | refused fault =>
          obtain ⟨rfl, rfl⟩ := Program.leads_done.mp hmore
          exact .of_decided htotal (.refused (by omega) fault)
      | exhausted => cases hsaw.more_of_exhausted
      -- one more interrupt is on its way, and one attempt less is left
      | sent =>
          have hlater := ih (sent + 1) (by omega) hmore hothers
          rw [interrupting, attemptDeed_succ htotal, List.append_assoc] at hlater
          exact hlater

/-- What a pause does where commands and execution exclude each other. -/
theorem interrupt_did (hleads : (interrupt config).Leads deeds left)
    (hfits : ∀ deed ∈ deeds, Fits deed) : PauseDid config deeds left.value? := by
  rcases Program.leads_act.mp hleads with ⟨rfl, rfl⟩ | ⟨exited, rest, rfl, hrest⟩
  · exact .begun
  cases exited with
  | true =>
      obtain ⟨rfl, rfl⟩ := Program.leads_done.mp hrest
      exact .exited
  | false =>
      rcases Program.leads_act.mp hrest with ⟨rfl, rfl⟩ | ⟨attempt, more, rfl, hmore⟩
      · exact .going 0 (Nat.zero_le _)
      obtain ⟨-, ⟨executes, hsaw⟩, hothers⟩ := by simpa only [List.forall_mem_cons] using hfits
      cases attempt with
      | notRunning =>
          obtain ⟨rfl, rfl⟩ := Program.leads_done.mp hmore
          exact .decided 0 (Nat.zero_le _) .idle
      | exited => exact (hsaw.exited.mp rfl).elim
      | refused fault =>
          obtain ⟨rfl, rfl⟩ := Program.leads_done.mp hmore
          have hleft : config.pauseAttempts ≠ 0 := by simpa using hsaw.more_of_interrupted rfl
          exact .decided 0 (Nat.zero_le _) (.refused (Nat.pos_of_ne_zero hleft) fault)
      | exhausted =>
          obtain ⟨rfl, rfl⟩ := Program.leads_done.mp hmore
          have hnone : config.pauseAttempts = 0 := by simpa using hsaw.more_of_exhausted
          exact .decided 0 (Nat.zero_le _) (hnone ▸ .exhausted)
      | sent =>
          have hleft : config.pauseAttempts ≠ 0 := by simpa using hsaw.more_of_interrupted rfl
          exact settle_did 0 _ (by omega) hmore hothers

/-! ## How many interrupts there are -/

/-- How many interrupts were sent. -/
def interruptsIn : List (Deed interface) → Nat
  | [] => 0
  | deed :: deeds => interruptsOf deed + interruptsIn deeds

theorem interruptsIn_concat (deeds : List (Deed interface)) (deed : Deed interface) :
    interruptsIn (deeds ++ [deed]) = interruptsIn deeds + interruptsOf deed := by
  induction deeds with
  | nil => simp [interruptsIn]
  | cons first rest ih => rw [List.cons_append, interruptsIn, interruptsIn, ih, Nat.add_assoc]

theorem interruptsOf_attemptDeed (attempt : Attempt) (sent : Nat) :
    interruptsOf (attemptDeed config attempt sent) = attempt.interrupts := by
  cases sent <;> rfl

theorem interruptsIn_interrupting (sent : Nat) :
    interruptsIn (interrupting config sent) = sent := by
  induction sent with
  | zero => rfl
  | succ sent ih =>
      rw [interrupting, interruptsIn_concat, ih, interruptsOf_attemptDeed, Attempt.interrupts]

/-- A pause does not send more interrupts than it may. -/
theorem PauseDid.interrupts_le {result : Option Outcome} (h : PauseDid config deeds result) :
    interruptsIn deeds ≤ config.pauseAttempts := by
  cases h with
  | begun | exited => exact Nat.zero_le _
  | going sent h => rwa [interruptsIn_interrupting]
  | @decided sent attempt outcome h hdecided =>
      rw [interruptsIn_concat, interruptsIn_interrupting, interruptsOf_attemptDeed]
      cases hdecided with
      | refused hlt fault => exact hlt
      | idle | paused | exited | exhausted => exact h

end Course

/-! ## What a pause consists of -/

/-- Whether an action is one of a pause where commands and execution exclude each other. -/
def Action.Pauses : Action → Prop
  | isExited | interrupt _ | settle _ _ => True
  | _ => False

/-- Whether an action is an attempt to stop the target by an interrupt. -/
def Action.Attempts : Action → Prop
  | interrupt _ | settle _ _ => True
  | _ => False

section Pauses

variable {config : Config}

theorem settle_pauses (interval attempts : Nat) :
    (settle interval attempts).OnlyDoes Action.Pauses := by
  induction attempts with
  | zero => exact ⟨trivial, fun attempt => trivial⟩
  | succ attempts ih =>
      refine ⟨trivial, fun attempt => ?_⟩
      cases attempt with
      | sent => exact ih
      | notRunning | exited | refused | exhausted => trivial

theorem interrupt_pauses : (interrupt config).OnlyDoes Action.Pauses := by
  refine ⟨trivial, fun exited => ?_⟩
  cases exited with
  | true => trivial
  | false =>
      refine ⟨trivial, fun attempt => ?_⟩
      cases attempt with
      | sent => exact settle_pauses _ _
      | notRunning | exited | refused | exhausted => trivial

theorem pause_eq_interrupt (hsync : config.asyncMode = false) :
    pause config = interrupt config := by
  simp [pause, hsync]

theorem pause_eq_command (hasync : config.asyncMode = true) :
    pause config = runCommand config "-exec-interrupt" config.commandLimit := by
  simp only [pause, hasync, if_true]
  rfl

/-- A command makes no attempt to stop the target. -/
theorem runCommand_not_attempts (line : String) (limit : Nat) :
    (runCommand config line limit).OnlyDoes fun action : Action => ¬ action.Attempts := by
  have hadmitted : (admitted config line limit).OnlyDoes
      fun action : Action => ¬ action.Attempts := by
    have hexchanges : (admitted config line limit).OnlyDoes fun action : Action =>
        action.Exchanges (line = ·) ∨ action = .claimTarget := admitted_exchanges rfl config limit
    refine hexchanges.mono ?_
    rintro action (haction | rfl)
    · cases action <;> first | exact id | exact absurd haction id
    · exact id
  exact ⟨id, fun _ => hadmitted.bind fun _ => ⟨id, fun _ => trivial⟩⟩

end Pauses

/-- How far a pause has come, of which `next` is what follows on it: it is still going on, or it is
over, and its caller has gone on with the outcome. -/
inductive Pausing {β : Type} (config : Config) (next : Outcome → Activity β) :
    List (Deed interface) → Activity β → Prop
  | going {deeds : List (Deed interface)} {left : Activity Outcome}
      (hdid : PauseDid config deeds none) (hleads : (pause config).Leads deeds left) :
      Pausing config next deeds (left >>= next)
  | finished {deeds more : List (Deed interface)} {outcome : Outcome} {rest : Activity β}
      (hdid : PauseDid config deeds (some outcome))
      (hleads : (next outcome).Leads more rest) : Pausing config next (deeds ++ more) rest

/-- Where commands and execution exclude each other, a pause is nothing but its interrupts. -/
theorem pausing_of_leads {β : Type} {config : Config} (hsync : config.asyncMode = false)
    {next : Outcome → Activity β} {deeds : List (Deed interface)} {rest : Activity β}
    (hleads : (pause config >>= next).Leads deeds rest) (hfits : ∀ deed ∈ deeds, Fits deed) :
    Pausing config next deeds rest := by
  have hpause := pause_eq_interrupt hsync
  rcases hleads.of_bind with ⟨left, hleft, rfl⟩ | ⟨first, outcome, more, rfl, hfirst, hmore⟩
  · have hdid := interrupt_did (hpause ▸ hleft) hfits
    cases left with
    | act action following => exact .going hdid hleft
    | done outcome => simpa using Pausing.finished hdid (.start (next outcome))
  · have hdid := interrupt_did (hpause ▸ hfirst) fun deed hdeed => hfits deed (by simp [hdeed])
    exact .finished hdid hmore

section Runs

variable {host : Host} {ρ α : Type} {program : ρ → Activity α} {c later : Chronicle host ρ α}
  {n : Nat}

/-- An action of a pause changes nothing but the number of interrupts. -/
theorem Chronicle.session_of_pauses {turn : Turn ρ} (hturn : c.turn? program turn = some later)
    {occurrence : Occurrence}
    (hhistory : later.history = c.history ++ [occurrence]) {deed : Deed interface}
    (hdeed : occurrence.deedOf? (.caller n) = some deed) (hpauses : deed.action.Pauses) :
    later.session =
      { c.session with state := c.session.state.interrupted (interruptsOf deed) } := by
  have hchange := Chronicle.change_of_turn? hturn
  obtain ⟨same, hsame⟩ : ∃ state, later.session = { c.session with state } := by
    cases hchange with
    | act | expire => exact ⟨_, rfl⟩
    | request | read | router | close | reportGone => simp at hhistory
    | reader | watcher | print =>
        obtain rfl := by simpa using hhistory
        simp [Occurrence.deedOf?] at hdeed
  rcases hchange.effect with ⟨hnone, -⟩ | ⟨last, hlast, heffect⟩
  · simp [hnone] at hhistory
  obtain rfl : last = occurrence := by simpa [hlast] using hhistory
  obtain ⟨action, answer⟩ := deed
  have hstate : later.session.state =
      c.session.state.interrupted (interruptsOf ⟨action, answer⟩) := by
    cases action with
    | interrupt more => exact (heffect.interrupt_saw hdeed).2
    | settle interval more => exact (heffect.settle_saw hdeed).2.1
    | isExited => exact heffect.eq_of_isExited hdeed
    | _ => exact absurd hpauses id
  rw [hsame] at hstate ⊢
  rw [← hstate]

end Runs

/-- Where commands and execution exclude each other, a pause looks for the end of the session and
then interrupts its target until an attempt decides on its outcome, and it can always come to that by
itself.  It does not send more interrupts than it may, and changes nothing but their number.  An
attempt has seen the end of the session or the target at rest exactly if that was so; otherwise it
sends an interrupt if one is left, and after the first one only when the time for it is over.  Where
commands and execution are possible at once, a pause is a command and sends no interrupts. -/
theorem pause_interrupts_until_decided (host : Host) (plan : Plan)
    (before c : Chronicle host Request Reply) (h : Possible (Request.program plan) before) (n : Nat)
    (next : Outcome → Activity Reply)
    (hcaller : before.system.callers[n]? = some (pause plan.config >>= next))
    (turns : List (Turn Request)) (hturns : before.turns? (Request.program plan) turns = some c) :
    (plan.config.asyncMode = false →
      (∃ since rest, c.history = before.history ++ since ∧ c.system.callers[n]? = some rest ∧
        Pausing plan.config next (deedsOf (.caller n) since) rest) ∧
      (∀ deeds left, (pause plan.config).Leads deeds left →
        c.system.callers[n]? = some (left >>= next) →
        ∃ more later outcome, (∀ turn ∈ more, turn.IsOf n) ∧
          c.turns? (Request.program plan) more = some later ∧
          later.system.callers[n]? = some (next outcome)) ∧
      (∀ deeds result, PauseDid plan.config deeds result →
        interruptsIn deeds ≤ plan.config.pauseAttempts) ∧
      (pause plan.config).OnlyDoes Action.Pauses) ∧
    (plan.config.asyncMode = true →
      pause plan.config = runCommand plan.config "-exec-interrupt" plan.config.commandLimit ∧
      (pause plan.config).OnlyDoes fun action : Action => ¬ action.Attempts) ∧
    (∀ past occurrence future, c.history = past ++ occurrence :: future →
      (∀ exited, occurrence.deedOf? (.caller n) = some ⟨.isExited, exited⟩ →
        (exited = true ↔ Ended past)) ∧
      (∀ more attempt, occurrence.deedOf? (.caller n) = some ⟨.interrupt more, attempt⟩ →
        attempt.Saw False (Executing past) more) ∧
      ∀ interval more attempt,
        occurrence.deedOf? (.caller n) = some ⟨.settle interval more, attempt⟩ →
        attempt.Saw (Ended past) (Executing past) more ∧ (¬ Ended past → Executing past →
          occurrence = .gaveUp (.caller n) ⟨.settle interval more, attempt⟩)) ∧
    (∀ turn later occurrence deed, c.turn? (Request.program plan) turn = some later →
      later.history = c.history ++ [occurrence] →
      occurrence.deedOf? (.caller n) = some deed → deed.action.Pauses →
      later.session =
        { c.session with state := c.session.state.interrupted (interruptsOf deed) }) := by
  have hc : Possible (Request.program plan) c := h.turns turns hturns
  refine ⟨fun hsync => ?_, fun hasync => ?_, ?_, ?_⟩
  · have honly : (pause plan.config).OnlyDoes Action.Pauses :=
      pause_eq_interrupt hsync ▸ interrupt_pauses
    obtain ⟨since, rest, hhistory, hrest, hleads⟩ := Chronicle.leads_of_turns? hturns hcaller
    have hfits : ∀ deed ∈ deedsOf (.caller n) since, Fits deed := by
      intro deed hdeed
      exact hc.fits (.caller n) deed (by simp [hhistory, hdeed])
    refine ⟨⟨since, rest, hhistory, hrest, pausing_of_leads hsync hleads hfits⟩, ?_, ?_, honly⟩
    · intro deeds left hleft hgoing
      refine Chronicle.exists_end_of_bind ((hleft.onlyDoes honly).2.mono ?_) hgoing
      rintro action hpauses rfl
      exact hpauses
    · intro deeds result hdid
      exact hdid.interrupts_le
  · have hcommand := pause_eq_command hasync
    exact ⟨hcommand, hcommand ▸ runCommand_not_attempts _ _⟩
  · intro past occurrence future hhistory
    refine ⟨?_, ?_, ?_⟩
    · intro exited hdeed
      exact hc.answer_isExited_iff hhistory hdeed
    · intro more attempt hdeed
      exact hc.interrupt_saw hhistory hdeed
    · intro interval more attempt hdeed
      exact hc.settle_saw hhistory hdeed
  · intro turn later occurrence deed hturn hhistory hdeed hpauses
    exact Chronicle.session_of_pauses hturn hhistory hdeed hpauses

/-- A target that executes stops after the first interrupt. -/
theorem pause_interrupts_until_decided_of_stop :
    ∃ (before c : Chronicle Host.blind Request Reply) (next : Outcome → Activity Reply),
      Possible (Request.program Plan.plain) before ∧
      before.system.callers[2]? = some (pause Plan.plain.config >>= next) ∧
      before.session.state.core.isRunning = true ∧
      c.system.value? 2 = some (.outcomes [paused]) ∧ c.session.state.wire.interrupts = 1 ∧
      ∃ since rest, c.history = before.history ++ since ∧ c.system.callers[2]? = some rest ∧
        Pausing Plan.plain.config next (deedsOf (.caller 2) since) rest := by
  obtain ⟨before, c, next, hbefore, hturns, hcaller, hrunning, hvalue, hinterrupts⟩ :
      ∃ (before c : Chronicle Host.blind Request Reply) (next : Outcome → Activity Reply),
      Chronicle.turns? (Request.program Plan.plain) {} (List.flatten
        [[.request (.operation .startConnected)], Turn.acts 0 4, [.request (.line "*running")],
          Turn.acts 1 4, [.request (.operation (.call .pause))], Turn.acts 2 1]) = some before ∧
      before.turns? (Request.program Plan.plain) (List.flatten
        [Turn.acts 2 2, [.request (.line "*stopped")], Turn.acts 3 4, Turn.acts 2 1]) = some c ∧
      before.system.callers[2]? = some (pause Plan.plain.config >>= next) ∧
      before.session.state.core.isRunning = true ∧
      c.system.value? 2 = some (Reply.outcomes [paused]) ∧
      c.session.state.wire.interrupts = 1 := ⟨_, _, _, rfl, rfl, rfl, rfl, rfl, rfl⟩
  have h := Possible.fresh.turns _ hbefore
  obtain ⟨hsync, -⟩ := pause_interrupts_until_decided _ _ before c h 2 next hcaller _ hturns
  exact ⟨before, c, next, h, hcaller, hrunning, hvalue, hinterrupts, (hsync rfl).1⟩

end DebugBridge.Session
