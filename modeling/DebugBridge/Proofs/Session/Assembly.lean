import DebugBridge.Proofs.Protocol
import DebugBridge.Session.Operation

/-!
# How operations are put together

Whatever a session is asked to do, its program is made of two kinds of pieces: commands, and single
actions that have to do with no command.  A fact about the programs of all operations is therefore
one about a single command and about each of these actions.

## Main statements

* `Operation.assembled`: the operations are put together in this way.
* `Assembled.follows`: a program that is keeps to each protocol to which its pieces keep.
-/

namespace DebugBridge

/-- An outcome that no record stands behind. -/
def Outcome.MadeUp (outcome : Outcome) : Prop :=
  ∃ status message, outcome = .ofMessage status message

theorem Outcome.madeUp_ofMessage (status : Status) (message : String) :
    (Outcome.ofMessage status message).MadeUp :=
  ⟨status, message, rfl⟩

namespace Session

/-- Whether an action belongs neither to a command nor to the reports on the debugger. -/
def Action.IsPlain : Action → Prop
  | beginStart | finishStart | markExited | phase | isExited | isRunning | currentBreakpoint
  | publish _ | launch | connect | watchExit | awaitOutput _ | enableCommands | disableCommands
  | commandsEnabled | interrupt _ | settle _ _ | closeInput | terminate => True
  | markHeard | setRunning _ | applyExec _ | noteResult _ | deliver _ | acquire _ | release
  | claimTarget | arm | disarm | write _ | awaitResult _ _ _ => False

/-- The program is put together from plain actions and commands.  If the outcomes of the commands
are as stated in `taken`, it ends with a value that is as stated in `ends`. -/
inductive Assembled {β : Type} (config : Config) (taken : Outcome → Prop) (ends : β → Prop) :
    Activity β → Prop
  | done {value : β} (h : ends value) : Assembled config taken ends (.done value)
  | act {action : Action} {next : action.Answer → Activity β} (haction : action.IsPlain)
      (hnext : ∀ answer, Assembled config taken ends (next answer)) :
      Assembled config taken ends (.act action next)
  | command {line : String} {limit : Nat} {next : Outcome → Activity β}
      (hnext : ∀ outcome, taken outcome → Assembled config taken ends (next outcome)) :
      Assembled config taken ends (runCommand config line limit >>= next)
  | tryCommand {line : String} {limit : Nat} {next : Option Outcome → Activity β}
      (hnext : ∀ result : Option Outcome, (∀ outcome ∈ result, taken outcome) →
        Assembled config taken ends (next result)) :
      Assembled config taken ends (tryRunCommand config line limit >>= next)

section Assembled

variable {β γ : Type} {config : Config} {taken : Outcome → Prop}

theorem assembled_pure {ends : β → Prop} {value : β} (h : ends value) :
    Assembled config taken ends (pure value) :=
  .done h

theorem assembled_perform {ends : β → Prop} {action : Action} {next : action.Answer → Activity β}
    (haction : action.IsPlain) (hnext : ∀ answer, Assembled config taken ends (next answer)) :
    Assembled config taken ends (perform action >>= next) :=
  .act haction hnext

theorem Assembled.bind {program : Activity β} {next : β → Activity γ} {middle : β → Prop}
    {ends : γ → Prop} (h : Assembled config taken middle program)
    (hnext : ∀ value, middle value → Assembled config taken ends (next value)) :
    Assembled config taken ends (program >>= next) := by
  induction h with
  | done h => exact hnext _ h
  | act haction _ ih => exact .act haction ih
  | command _ ih =>
      rw [bind_assoc]
      exact .command ih
  | tryCommand _ ih =>
      rw [bind_assoc]
      exact .tryCommand ih

theorem runCommand_assembled (line : String) (limit : Nat) :
    Assembled config taken taken (runCommand config line limit) := by
  rw [← bind_pure (runCommand config line limit)]
  exact .command fun _ houtcome => .done houtcome

theorem tryRunCommand_assembled (line : String) (limit : Nat) :
    Assembled config taken (fun result => ∀ outcome ∈ result, taken outcome)
      (tryRunCommand config line limit) := by
  rw [← bind_pure (tryRunCommand config line limit)]
  exact .tryCommand fun _ hresult => .done hresult

theorem execute_assembled (command : String) (arguments : List String) :
    Assembled config taken taken (execute config command arguments) :=
  runCommand_assembled _ _

/-- A program that is put together from pieces keeps to a protocol if each piece does so, from
wherever it may begin to wherever the next one may. -/
theorem Assembled.follows {ends : β → Prop} {program : Activity β}
    (h : Assembled config taken ends program) (rules : Protocol interface)
    (home : rules.Stage → Prop)
    (hplain : ∀ stage action, home stage → action.IsPlain → rules.Permits stage action ∧
      ∀ answer, home (rules.after stage action answer))
    (hcommand : ∀ stage line limit, home stage →
      (runCommand config line limit).Follows rules stage fun outcome stage =>
        home stage ∧ taken outcome)
    (htryCommand : ∀ stage line limit, home stage →
      (tryRunCommand config line limit).Follows rules stage fun result stage =>
        home stage ∧ ∀ outcome ∈ result, taken outcome)
    {stage : rules.Stage} (hstage : home stage) :
    program.Follows rules stage fun value stage => home stage ∧ ends value := by
  induction h generalizing stage with
  | done h => exact ⟨hstage, h⟩
  | act haction _ ih =>
      obtain ⟨hpermits, hafter⟩ := hplain stage _ hstage haction
      exact ⟨hpermits, fun answer _ => ih answer (hafter answer)⟩
  | command _ ih =>
      refine (hcommand stage _ _ hstage).bind ?_
      intro outcome stage h
      exact ih outcome h.2 h.1
  | tryCommand _ ih =>
      refine (htryCommand stage _ _ hstage).bind ?_
      intro result stage h
      exact ih result h.2 h.1

/-! ## Stopping the target -/

section Command

variable (hmadeUp : ∀ outcome : Outcome, outcome.MadeUp → taken outcome)

include hmadeUp

/-- What was made up is taken for granted. -/
theorem assembled_ofMessage (status : Status) (message : String) :
    Assembled config taken taken (pure (Outcome.ofMessage status message)) :=
  assembled_pure (hmadeUp _ (Outcome.madeUp_ofMessage status message))

theorem settle_assembled (interval attempts : Nat) :
    Assembled config taken taken (settle interval attempts) := by
  induction attempts with
  | zero =>
      apply assembled_perform (by trivial)
      intro attempt
      cases attempt <;> exact assembled_ofMessage hmadeUp _ _
  | succ attempts ih =>
      apply assembled_perform (by trivial)
      intro attempt
      cases attempt with
      | sent => exact ih
      | notRunning | exited | refused | exhausted => exact assembled_ofMessage hmadeUp _ _

theorem interrupt_assembled : Assembled config taken taken (interrupt config) := by
  apply assembled_perform (by trivial)
  intro exited
  cases exited with
  | true => exact assembled_ofMessage hmadeUp _ _
  | false =>
      apply assembled_perform (by trivial)
      intro attempt
      cases attempt with
      | sent => exact settle_assembled hmadeUp _ _
      | notRunning | exited | refused | exhausted => exact assembled_ofMessage hmadeUp _ _

theorem pause_assembled : Assembled config taken taken (pause config) := by
  unfold pause
  split
  · exact execute_assembled _ _
  · exact interrupt_assembled hmadeUp

/-! ## Start and stop -/

omit hmadeUp in
theorem finish_assembled : Assembled config taken (fun _ => True) finish := by
  apply assembled_perform (by trivial)
  intro ended
  cases ended with
  | true => exact assembled_perform (by trivial) fun _ => assembled_pure trivial
  | false => exact assembled_pure trivial

theorem quit_assembled : Assembled config taken (fun _ => True) (quit config) := by
  have hrest : Assembled config taken (fun _ => True)
      (do let _ ← tryRunCommand config "-gdb-exit" config.quitLimit
          perform .closeInput
          perform .terminate) :=
    (tryRunCommand_assembled _ _).bind fun _ _ =>
      assembled_perform (by trivial) fun _ =>
        assembled_perform (by trivial) fun _ => assembled_pure trivial
  apply assembled_perform (by trivial)
  intro running
  cases running with
  | true => exact (pause_assembled hmadeUp).bind fun _ _ => hrest
  | false => exact hrest

theorem stop_assembled : Assembled config taken (fun _ => True) (stop config) := by
  apply assembled_perform (by trivial)
  intro enabled
  cases enabled with
  | true => exact (quit_assembled hmadeUp).bind fun _ _ => finish_assembled
  | false => exact finish_assembled

omit hmadeUp in
theorem warmUp_assembled (commands : List String) :
    Assembled config taken (fun _ => True) (warmUp config commands) := by
  induction commands with
  | nil => exact assembled_pure trivial
  | cons command rest ih =>
      refine (execute_assembled command []).bind ?_
      intro outcome _
      split
      · exact ih
      · exact assembled_pure trivial

omit hmadeUp in
theorem comeUp_assembled (plan : Plan) :
    Assembled plan.config taken (fun _ => True) (comeUp plan) := by
  apply assembled_perform (by trivial)
  intro heard
  cases heard with
  | true => exact warmUp_assembled _
  | false =>
      apply assembled_perform (by trivial)
      intro exited
      cases exited <;> exact assembled_pure trivial

theorem bringUp_assembled (plan : Plan) :
    Assembled plan.config taken (fun _ => True) (bringUp plan) := by
  apply assembled_perform (by trivial)
  intro gone
  cases gone
  case' true =>
    refine finish_assembled.bind ?_
    intro _ _
  -- from here on it does not matter whether the debugger was gone
  all_goals
    apply assembled_perform (by trivial)
    intro _
    refine (comeUp_assembled plan).bind ?_
    intro fault _
    cases fault with
    | some fault => exact (stop_assembled hmadeUp).bind fun _ _ => assembled_pure trivial
    | none => exact assembled_perform (by trivial) fun _ => assembled_pure trivial

theorem startConnected_assembled (plan : Plan) :
    Assembled plan.config taken (fun _ => True) (startConnected plan) := by
  apply assembled_perform (by trivial)
  intro idle
  cases idle with
  | true => exact assembled_perform (by trivial) fun _ => bringUp_assembled hmadeUp plan
  | false => exact assembled_pure trivial

theorem start_assembled (plan : Plan) :
    Assembled plan.config taken (fun _ => True) (start plan) := by
  apply assembled_perform (by trivial)
  intro idle
  cases idle with
  | true =>
      apply assembled_perform (by trivial)
      intro fault
      cases fault with
      | some fault => exact assembled_perform (by trivial) fun _ => assembled_pure trivial
      | none => exact bringUp_assembled hmadeUp plan
  | false => exact assembled_pure trivial

/-! ## Calls -/

theorem whenCommanded_assembled {program : Activity Outcome}
    (h : Assembled config taken taken program) :
    Assembled config taken taken (whenCommanded program) := by
  apply assembled_perform (by trivial)
  intro enabled
  cases enabled with
  | true => exact h
  | false =>
      apply assembled_perform (by trivial)
      intro exited
      cases exited <;> exact assembled_ofMessage hmadeUp _ _

theorem call_assembled (request : Call) : Assembled config taken taken (call config request) := by
  refine whenCommanded_assembled hmadeUp ?_
  cases request with
  | pause => exact pause_assembled hmadeUp
  | _ => exact runCommand_assembled _ _

theorem set_assembled (settings : List String) :
    Assembled config taken (fun outcomes => ∀ outcome ∈ outcomes, taken outcome)
      (Session.set config settings) := by
  induction settings with
  | nil => exact assembled_pure nofun
  | cons setting rest ih =>
      refine (whenCommanded_assembled hmadeUp (execute_assembled setting [])).bind ?_
      intro outcome hfirst
      split
      · refine ih.bind fun outcomes houtcomes => assembled_pure ?_
        exact List.forall_mem_cons.mpr ⟨hfirst, houtcomes⟩
      · exact assembled_pure (by simpa using hfirst)

end Command

end Assembled

/-! ## Operations -/

/-- An operation of a session. -/
inductive Operation
  | start
  | startConnected
  | stop
  | call (request : Call)
  | set (settings : List String)
  /-- a line as it is, as soon as the gate is free -/
  | command (line : String) (limit : Nat)
  /-- a line as it is, unless the gate stays held up to the limit -/
  | tryCommand (line : String) (limit : Nat)

/-- What a request is answered. -/
inductive Reply
  | started (result : Except Fault Unit)
  | outcomes (list : List Outcome)
  | noted

/-- The outcomes of commands in a reply. -/
def Reply.outcomesOf : Reply → List Outcome
  | outcomes list => list
  | started _ | noted => []

/-- The program of an operation. -/
def Operation.program (plan : Plan) : Operation → Activity Reply
  | start => return .started (← Session.start plan)
  | startConnected => return .started (← Session.startConnected plan)
  | stop => do
      Session.stop plan.config
      return .noted
  | call request => return .outcomes [← Session.call plan.config request]
  | set settings => return .outcomes (← Session.set plan.config settings)
  | command line limit => return .outcomes [← runCommand plan.config line limit]
  | tryCommand line limit =>
      return .outcomes (← tryRunCommand plan.config line limit).toList

theorem Operation.assembled {taken : Outcome → Prop}
    (hmadeUp : ∀ outcome : Outcome, outcome.MadeUp → taken outcome) (plan : Plan)
    (operation : Operation) :
    Assembled plan.config taken (fun reply => ∀ outcome ∈ reply.outcomesOf, taken outcome)
      (operation.program plan) := by
  cases operation with
  | start => exact (start_assembled hmadeUp plan).bind fun _ _ => assembled_pure nofun
  | startConnected =>
      exact (startConnected_assembled hmadeUp plan).bind fun _ _ => assembled_pure nofun
  | stop => exact (stop_assembled hmadeUp).bind fun _ _ => assembled_pure nofun
  | call request =>
      refine (call_assembled hmadeUp request).bind fun outcome h => assembled_pure ?_
      simpa [Reply.outcomesOf] using h
  | set settings => exact (set_assembled hmadeUp settings).bind fun _ h => assembled_pure h
  | command line limit =>
      refine (runCommand_assembled line limit).bind fun outcome h => assembled_pure ?_
      simpa [Reply.outcomesOf] using h
  | tryCommand line limit =>
      refine (tryRunCommand_assembled line limit).bind fun result h => assembled_pure ?_
      simpa [Reply.outcomesOf] using h

end Session

end DebugBridge
