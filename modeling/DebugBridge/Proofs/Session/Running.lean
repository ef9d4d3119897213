import DebugBridge.Proofs.Session.Conduct

/-!
# Whether the target executes

What a session takes for the state of its target is what the latest of several sources has said.
Execution records and result records speak of it alike, so the answer to a command that is admitted
while the target executes makes the target look stopped.

## Main statements

* `Possible.isRunning_eq`: the state of the target is the last verdict.
* `not_running_after_answer`: an answer makes an executing target look stopped.
* `running_until_verdict`: nothing else does, and what follows for commands and for a stop.
-/

namespace DebugBridge.Session

/-! ## Verdicts -/

/-- What an occurrence says about whether the target executes, if it says anything. -/
def Occurrence.verdict? : Occurrence → Option Bool
  -- an execution record
  | .did _ ⟨.applyExec record, _⟩ => some record.isRunning
  -- a result record, of whichever command
  | .did _ ⟨.noteResult outcome, _⟩ => some (outcome.status == .running)
  -- the announcement of a quit, or a command that could not be written
  | .did _ ⟨.setRunning running, _⟩ => some running
  -- a command claims the target
  | .did _ ⟨.claimTarget, granted⟩ => if granted then some true else none
  -- the end of the session
  | .did _ ⟨.markExited, ended⟩ => if ended then some false else none
  -- a command that has claimed the target gives up
  | .gaveUp _ ⟨.awaitResult _ _ claimed, _⟩ => if claimed then some false else none
  | _ => none

theorem perform_isRunning {reaction : Option Fault} {action : Action} {state after : State}
    {answer : action.Answer} (actor : Actor)
    (hperform : state.perform reaction action = some (after, answer)) :
    after.core.isRunning =
      (Occurrence.verdict? (.did actor ⟨action, answer⟩)).getD state.core.isRunning := by
  cases action with
  | claimTarget | markExited =>
      cases hperform
      simp only [Core.claimTarget, Core.markExited, Occurrence.verdict?]
      split <;> simp_all [Core.isRunning, Core.setRunning]
  | applyExec | noteResult | setRunning =>
      cases hperform
      rfl
  | beginStart | finishStart | deliver =>
      rw [perform_core hperform]
      simp only [Action.onCore, Core.beginStart, Core.finishStart, Core.deliver]
      split <;> rfl
  -- to take a result from the slot says nothing: the record was noted when it came
  | awaitResult ticket limit claimed =>
      rw [perform_core hperform]
      simp only [Action.onCore, Core.collect?]
      split
      · rfl
      · split <;> rfl
  | _ =>
      rw [perform_core hperform]
      rfl

theorem giveUp_isRunning {reaction : Option Fault} {action : Action} {state after : State}
    {answer : action.Answer} (actor : Actor)
    (hgiveUp : state.giveUp reaction action = some (after, answer)) :
    after.core.isRunning =
      (Occurrence.verdict? (.gaveUp actor ⟨action, answer⟩)).getD state.core.isRunning := by
  cases action with
  | awaitResult ticket limit claimed =>
      cases hgiveUp
      cases claimed <;> rfl
  | _ =>
      rw [giveUp_core hgiveUp (by simp)]
      rfl

/-- The verdict of an occurrence, or else what was known before. -/
theorem Effect.isRunning_eq {state after : State} {occurrence : Occurrence}
    (h : Effect state occurrence after) :
    after.core.isRunning = occurrence.verdict?.getD state.core.isRunning := by
  cases h with
  | did hperform => exact perform_isRunning _ hperform
  | gaveUp hwait hgiveUp => exact giveUp_isRunning _ hgiveUp
  | printed hcore =>
      rw [hcore]
      rfl

/-! ## Runs -/

section Runs

variable {host : Host} {ρ α : Type} {program : ρ → Activity α} {c : Chronicle host ρ α}

/-- A target executes when the last verdict says so. -/
theorem Possible.isRunning_eq (h : Possible program c) :
    c.session.state.core.isRunning =
      ((c.history.filterMap Occurrence.verdict?).getLast?).getD false := by
  refine h.of_effect (fun core history => core.isRunning =
    ((history.filterMap Occurrence.verdict?).getLast?).getD false) rfl ?_
  intro c next occurrence _ _ _ heffect hbefore
  rw [heffect.isRunning_eq, hbefore]
  cases hverdict : occurrence.verdict? <;> simp [hverdict]

/-- What a verdict has said holds until another one says otherwise. -/
theorem Possible.isRunning_of_verdict (h : Possible program c) {before since : History}
    {occurrence : Occurrence} {running : Bool} (hhistory : c.history = before ++ occurrence :: since)
    (hverdict : occurrence.verdict? = some running)
    (hsince : ∀ other ∈ since, other.verdict? ≠ some (!running)) :
    c.session.state.core.isRunning = running := by
  rw [h.isRunning_eq, hhistory, List.filterMap_append, List.filterMap_cons_some hverdict,
    List.getLast?_append, List.getLast?_cons]
  cases hlast : (since.filterMap Occurrence.verdict?).getLast? with
  | none => rfl
  | some verdict =>
      obtain ⟨other, hmem, heq⟩ := List.mem_filterMap.mp (List.mem_of_getLast? hlast)
      have hother := hsince other hmem
      rw [heq] at hother
      cases running <;> cases verdict <;> first | rfl | exact absurd rfl hother

/-- A target that was reported to execute does so until a verdict says otherwise. -/
theorem Possible.isRunning_of_exec (h : Possible program c) {before since : History}
    {reporter : Actor} {record : AsyncRecord}
    (hhistory : c.history = before ++ .did reporter ⟨.applyExec record, ()⟩ :: since)
    (hrecord : record.isRunning = true)
    (hsince : ∀ occurrence ∈ since, occurrence.verdict? ≠ some false) :
    c.session.state.core.isRunning = true :=
  h.isRunning_of_verdict hhistory (congrArg some hrecord) hsince

end Runs

/-! ## What follows on a target that executes -/

section Consequences

variable {state : State} {config : Config}

/-- Where commands and execution exclude each other, a command is refused while the target executes,
and nothing is written. -/
theorem run?_admitted_of_isRunning (hexited : state.core.isExited = false)
    (hrunning : state.core.isRunning = true) (hsync : config.asyncMode = false) (line : String)
    (limit : Nat) :
    (state.run? (admitted config line limit)).map (fun result => (result.1.wire, result.2)) =
      some (state.wire, .targetRunning) := by
  obtain ⟨⟨gateHeld, ⟨issued, armed, result, _⟩, ⟨_, heard, phase, silent⟩⟩, commanded, wire,
    router⟩ := state
  obtain rfl := hexited
  obtain rfl := hrunning
  obtain ⟨debugger, elfFile, arguments, _⟩ := config
  obtain rfl := hsync
  rfl

/-- The state and what is left of a program after it has done so many things by itself. -/
def State.steps? {α : Type} (state : State) : Nat → Activity α → Option (State × Activity α)
  | 0, program => some (state, program)
  | count + 1, program =>
      (state.step? program).bind fun (next, rest) => next.steps? count rest

/-- A stop begins with a pause of a target that executes. -/
theorem steps?_stop_of_isRunning (hcommanded : state.commanded = true)
    (hrunning : state.core.isRunning = true) :
    ∃ rest, state.steps? 2 (stop config) =
      some ({ state with commanded := false }, pause config >>= rest) := by
  refine ⟨fun _ => (do
    let _ ← tryRunCommand config "-gdb-exit" config.quitLimit
    perform .closeInput
    perform .terminate : Activity Unit) >>= fun _ => finish, ?_⟩
  obtain ⟨⟨gateHeld, slot, ⟨_, heard, phase, silent⟩⟩, _, wire, router⟩ := state
  obtain rfl := hcommanded
  obtain rfl := hrunning
  rw [← bind_assoc]
  rfl

/-- The first thing that the debugger notices of a stop, while its target executes, is an interrupt:
by a signal where commands and execution exclude each other, else by a command. -/
theorem exists_steps?_stop_of_isRunning (hcommanded : state.commanded = true)
    (hexited : state.core.isExited = false) (hrunning : state.core.isRunning = true)
    (hgate : config.asyncMode = true → state.core.gateHeld = false)
    (hattempts : config.asyncMode = false → config.pauseAttempts ≠ 0) :
    ∃ count, (state.steps? count (stop config)).map (fun result => result.1.wire) = some
      (if config.asyncMode then
        { state.wire with written := state.wire.written ++ ["-exec-interrupt"] }
      else { state.wire with interrupts := state.wire.interrupts + 1 }) := by
  obtain ⟨⟨gateHeld, ⟨issued, armed, result, _⟩, ⟨_, heard, phase, silent⟩⟩, _, wire, router⟩ :=
    state
  obtain rfl := hcommanded
  obtain rfl := hexited
  obtain rfl := hrunning
  obtain ⟨debugger, elfFile, arguments, mode, architecture, commandLimit, readyLimit, quitLimit,
    pauseAttempts, pauseInterval⟩ := config
  cases mode with
  | true =>
      -- two steps lead to the pause, then come the gate, a look, the slot, and the line
      obtain rfl : gateHeld = false := hgate rfl
      exact ⟨6, rfl⟩
  | false =>
      obtain ⟨attempts, rfl⟩ := Nat.exists_eq_succ_of_ne_zero (hattempts rfl)
      exact ⟨4, rfl⟩

end Consequences

/-! ## Answers and other verdicts -/

/-- Whether an execution record or the announcement of a quit is taken into account. -/
def Occurrence.isExecOrQuit : Occurrence → Bool
  | .did _ ⟨.applyExec _, _⟩ => true
  | .did _ ⟨.setRunning false, _⟩ => true
  | _ => false

/-- The answer to a command that was admitted while the target executes makes it look stopped,
though no other execution record came and no quit was announced. -/
theorem not_running_after_answer :
    ¬ ∀ (host : Host) (plan : Plan) (c : Chronicle host Request Reply),
      Possible (Request.program plan) c → c.session.state.core.isExited = false →
      ∀ before reporter record (since : History),
        c.history = before ++ .did reporter ⟨.applyExec record, ()⟩ :: since →
        record.isRunning = true → (∀ occurrence ∈ since, occurrence.isExecOrQuit = false) →
        c.session.state.core.isRunning = true := by
  intro hclaim
  obtain ⟨c, hturns, hhistory, hsince, hexited, hrunning⟩ :
      ∃ c : Chronicle Host.blind Request Reply,
        Chronicle.turns?
          (Request.program ⟨{ Plan.plain.config with asyncMode := true }, .local⟩) {} (List.flatten
            [[.request (.line "*running")], Turn.acts 0 4,
              [.request (.operation (.command "print x" 5))], Turn.acts 1 5,
              [.request (.line "^done")], Turn.acts 2 4]) = some c ∧
      c.history = c.history.take 2 ++
        .did (.caller 0) ⟨.applyExec ⟨"running", .tuple []⟩, ()⟩ :: c.history.drop 3 ∧
      (c.history.drop 3).all (!Occurrence.isExecOrQuit ·) = true ∧
      c.session.state.core.isExited = false ∧ c.session.state.core.isRunning = false :=
    ⟨_, rfl, rfl, rfl, rfl, rfl⟩
  have h := Possible.fresh.turns _ hturns
  have hrunning' := hclaim _ _ c h hexited _ _ _ _ hhistory rfl fun occurrence hmem => by
    simpa using List.all_eq_true.mp hsince occurrence hmem
  rw [hrunning] at hrunning'
  cases hrunning'

/-- Whether the target executes is what the last verdict says.  A target that was reported to
execute does so until a verdict says otherwise, and as long as it does, commands that exclude
execution are refused, and a stop begins with a pause, that is with an interrupt as soon as the
gate is free for it. -/
theorem running_until_verdict (host : Host) (plan : Plan) (c : Chronicle host Request Reply)
    (h : Possible (Request.program plan) c) (hexited : c.session.state.core.isExited = false) :
    c.session.state.core.isRunning =
      ((c.history.filterMap Occurrence.verdict?).getLast?).getD false ∧
    ∀ before reporter record (since : History),
      c.history = before ++ .did reporter ⟨.applyExec record, ()⟩ :: since →
      record.isRunning = true → (∀ occurrence ∈ since, occurrence.verdict? ≠ some false) →
      c.session.state.core.isRunning = true ∧
      (plan.config.asyncMode = false → ∀ line limit,
        (c.session.state.run? (admitted plan.config line limit)).map
          (fun result => (result.1.wire, result.2)) =
            some (c.session.state.wire, .targetRunning)) ∧
      (c.session.state.commanded = true →
        (∃ rest, c.session.state.steps? 2 (stop plan.config) =
          some ({ c.session.state with commanded := false }, pause plan.config >>= rest)) ∧
        ((plan.config.asyncMode = true → c.session.state.core.gateHeld = false) →
          (plan.config.asyncMode = false → plan.config.pauseAttempts ≠ 0) →
          ∃ count, (c.session.state.steps? count (stop plan.config)).map
            (fun result => result.1.wire) = some
              (if plan.config.asyncMode then
                { c.session.state.wire with
                  written := c.session.state.wire.written ++ ["-exec-interrupt"] }
              else
                { c.session.state.wire with
                  interrupts := c.session.state.wire.interrupts + 1 }))) := by
  refine ⟨h.isRunning_eq, ?_⟩
  intro before reporter record since hhistory hrecord hsince
  have hrunning := h.isRunning_of_exec hhistory hrecord hsince
  exact ⟨hrunning,
    fun hsync line limit => run?_admitted_of_isRunning hexited hrunning hsync line limit,
    fun hcommanded => ⟨steps?_stop_of_isRunning hcommanded hrunning,
      exists_steps?_stop_of_isRunning hcommanded hexited hrunning⟩⟩

/-- A command that starts the target and is told so leaves it executing. -/
theorem running_until_verdict_of_start : ∃ c : Chronicle Host.blind Request Reply,
    Possible (Request.program Plan.plain) c ∧ c.session.state.core.isExited = false ∧
      c.session.state.core.isRunning = true ∧
      ∀ line limit, (c.session.state.run? (admitted Plan.plain.config line limit)).map
        (fun result => (result.1.wire, result.2)) =
          some (c.session.state.wire, .targetRunning) := by
  obtain ⟨c, hturns, hhistory, hsince, hexited⟩ : ∃ c : Chronicle Host.blind Request Reply,
      Chronicle.turns? (Request.program Plan.plain) {} (List.flatten
        [[.request (.operation (.command "-exec-run" 5))], Turn.acts 0 6,
          [.request (.line "*running")], Turn.acts 1 4, [.request (.line "^running")],
          Turn.acts 2 4, Turn.acts 0 2]) = some c ∧
      c.history = c.history.take 8 ++
        .did (.caller 1) ⟨.applyExec ⟨"running", .tuple []⟩, ()⟩ :: c.history.drop 9 ∧
      (c.history.drop 9).all (Occurrence.verdict? · != some false) = true ∧
      c.session.state.core.isExited = false := ⟨_, rfl, rfl, rfl, rfl⟩
  have h := Possible.fresh.turns _ hturns
  obtain ⟨hrunning, hrefused, -⟩ := (running_until_verdict _ _ c h hexited).2 _ _ _ _ hhistory rfl
    fun occurrence hmem => by simpa using List.all_eq_true.mp hsince occurrence hmem
  exact ⟨c, h, hexited, hrunning, hrefused rfl⟩

end DebugBridge.Session
