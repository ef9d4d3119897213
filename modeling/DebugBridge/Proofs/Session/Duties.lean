import DebugBridge.Proofs.Session.Endings
import DebugBridge.Proofs.Session.Flight

/-!
# Who begins and ends a session

The parties of a session do a few things that concern the session as a whole: they begin its start,
connect it to a debugger, allow and forbid commands, end it and say so, and release the debugger.
Who has taken one of these steps owes the next one.  A `Duty` is what an actor owes, by what it has
done so far; everything else, commands above all, leaves duties alone.

## Main statements

* `Request.dutiful`: whatever a caller asks for, it fulfils its duties and is free at the end.
* `Possible.permits_duty`: what an actor does next is permitted by its duty.
* `Possible.exists_starter`: who opens a session is a caller that has begun its start, and that has
  not got its answer yet.
* `Possible.exists_releaser`: who releases the debugger is a caller that has forbidden commands, and
  that has not got its answer yet.
-/

namespace DebugBridge.Session

/-! ## Duties -/

/-- What an actor owes to the session as a whole. -/
inductive Duty
  | free
  /-- it has begun the start -/
  | begun
  /-- the debugger could not be launched -/
  | refused
  /-- it has connected the session to a debugger -/
  | linked
  /-- it has asked to be told when the debugger is gone, and commands are not possible yet -/
  | opening
  /-- it has forbidden commands -/
  | closing
  /-- it has closed the input of the debugger -/
  | leaving
  /-- it has ended the session; `opens` says whether it was opening it -/
  | herald (opens : Bool)
deriving DecidableEq

/-- Whether an action concerns the session as a whole. -/
def Action.IsMilestone : Action → Prop
  | beginStart | launch | connect | watchExit | enableCommands | disableCommands | markExited
  | closeInput | terminate => True
  | publish event => event = .exited
  | _ => False

namespace Duty

/-- What an actor may do with a duty; what does not concern the session as a whole, it always may. -/
def Permits : Duty → Action → Prop
  | free, .beginStart | free, .disableCommands | free, .markExited => True
  | begun, .launch | begun, .connect => True
  | refused, .markExited => True
  | linked, .watchExit => True
  | opening, .markExited | opening, .enableCommands => True
  | closing, .closeInput => True
  | leaving, .terminate => True
  | herald _, .publish .exited => True
  | _, action => ¬ action.IsMilestone

/-- The duty that follows on an action with its answer. -/
def after (duty : Duty) : (action : Action) → action.Answer → Duty
  | .beginStart, idle => if idle then begun else duty
  | .launch, fault => if fault.isNone then linked else refused
  | .connect, _ => linked
  | .watchExit, _ => opening
  | .enableCommands, _ => free
  | .disableCommands, allowed => if allowed then closing else duty
  | .markExited, ended =>
      match duty, ended with
      | refused, _ => free
      | opening, true => herald true
      | _, true => herald false
      | duty, false => duty
  | .publish .exited, _ => if duty = herald true then opening else free
  | .closeInput, _ => leaving
  | .terminate, _ => free
  | _, _ => duty

theorem permits_of_not_isMilestone {action : Action} (h : ¬ action.IsMilestone) (duty : Duty) :
    duty.Permits action := by
  cases action with
  | publish event =>
      cases event with
      | exited => exact absurd rfl h
      | _ => cases duty <;> exact h
  | _ => cases duty <;> first | exact h | exact absurd trivial h

theorem after_of_not_isMilestone {action : Action} (h : ¬ action.IsMilestone) (duty : Duty)
    (answer : action.Answer) : duty.after action answer = duty := by
  cases action with
  | publish event =>
      cases event with
      | exited => exact absurd rfl h
      | _ => rfl
  | _ => first | rfl | exact absurd trivial h

section Permits

variable {duty : Duty}

theorem permits_launch : duty.Permits .launch ↔ duty = begun := by
  cases duty <;> first
    | exact iff_of_true trivial (by simp)
    | exact iff_of_false (· trivial) (by simp)

theorem permits_connect : duty.Permits .connect ↔ duty = begun := by
  cases duty <;> first
    | exact iff_of_true trivial (by simp)
    | exact iff_of_false (· trivial) (by simp)

theorem permits_watchExit : duty.Permits .watchExit ↔ duty = linked := by
  cases duty <;> first
    | exact iff_of_true trivial (by simp)
    | exact iff_of_false (· trivial) (by simp)

theorem permits_enableCommands : duty.Permits .enableCommands ↔ duty = opening := by
  cases duty <;> first
    | exact iff_of_true trivial (by simp)
    | exact iff_of_false (· trivial) (by simp)

theorem permits_markExited :
    duty.Permits .markExited ↔ duty = free ∨ duty = refused ∨ duty = opening := by
  cases duty <;> first
    | exact iff_of_true trivial (by simp)
    | exact iff_of_false (· trivial) (by simp)

theorem permits_closeInput : duty.Permits .closeInput ↔ duty = closing := by
  cases duty <;> first
    | exact iff_of_true trivial (by simp)
    | exact iff_of_false (· trivial) (by simp)

theorem permits_terminate : duty.Permits .terminate ↔ duty = leaving := by
  cases duty <;> first
    | exact iff_of_true trivial (by simp)
    | exact iff_of_false (· trivial) (by simp)

theorem permits_publish_exited :
    duty.Permits (.publish .exited) ↔ ∃ opens, duty = herald opens := by
  cases duty <;> first
    | exact iff_of_true trivial (by simp)
    | exact iff_of_false (· rfl) (by simp)

end Permits

/-- Whether the actor is about to make commands possible, or to find out that it cannot. -/
def Opens : Duty → Prop
  | begun | refused | linked | opening | herald true => True
  | free | closing | leaving | herald false => False

/-- Who does not begin the start does not come to open the session. -/
theorem not_opens_after {duty : Duty} (h : ¬ duty.Opens) {action : Action}
    (hpermits : duty.Permits action) (answer : action.Answer)
    (hbegin : (⟨action, answer⟩ : Deed interface) ≠ ⟨.beginStart, true⟩) :
    ¬ (duty.after action answer).Opens := by
  by_cases haction : action.IsMilestone
  · cases action with
    | beginStart =>
        cases answer with
        | true => exact absurd rfl hbegin
        | false => exact h
    | launch | connect | watchExit | enableCommands =>
        cases duty <;> first | exact absurd trivial h | exact absurd trivial hpermits
    | disableCommands =>
        cases answer with
        | true => exact id
        | false => exact h
    | markExited =>
        obtain rfl | rfl | rfl := permits_markExited.mp hpermits
        · cases answer <;> exact id
        · exact id
        · exact absurd trivial h
    | publish event =>
        obtain rfl : event = .exited := haction
        obtain ⟨opens, rfl⟩ := permits_publish_exited.mp hpermits
        cases opens with
        | true => exact absurd trivial h
        | false => exact id
    | closeInput | terminate => exact id
    | _ => exact absurd haction id
  · rw [after_of_not_isMilestone haction]
    exact h

/-- Whether the actor is about to release the debugger. -/
def Releases : Duty → Prop
  | closing | leaving => True
  | free | begun | refused | linked | opening | herald _ => False

/-- Who has not forbidden commands that were possible does not come to release the debugger. -/
theorem not_releases_after {duty : Duty} (h : ¬ duty.Releases) {action : Action}
    (hpermits : duty.Permits action) (answer : action.Answer)
    (hdisable : (⟨action, answer⟩ : Deed interface) ≠ ⟨.disableCommands, true⟩) :
    ¬ (duty.after action answer).Releases := by
  by_cases haction : action.IsMilestone
  · cases action with
    | disableCommands =>
        cases answer with
        | true => exact absurd rfl hdisable
        | false => exact h
    | beginStart =>
        cases answer with
        | true => exact id
        | false => exact h
    | launch => cases answer <;> exact id
    | connect | watchExit | enableCommands | terminate => exact id
    | markExited =>
        obtain rfl | rfl | rfl := permits_markExited.mp hpermits <;> cases answer <;> exact id
    | publish event =>
        obtain rfl : event = .exited := haction
        obtain ⟨opens, rfl⟩ := permits_publish_exited.mp hpermits
        cases opens <;> exact id
    | closeInput =>
        obtain rfl := permits_closeInput.mp hpermits
        exact absurd trivial h
    | _ => exact absurd haction id
  · rw [after_of_not_isMilestone haction]
    exact h

end Duty

/-- The steps that concern the session as a whole, in their order. -/
abbrev duties : Protocol interface where
  Stage := Duty
  Permits := Duty.Permits
  Admits _ _ := True
  after := Duty.after

theorem stageAfter_duties {deeds : List (Deed interface)}
    (h : ∀ deed ∈ deeds, ¬ deed.action.IsMilestone) (duty : Duty) :
    duties.stageAfter duty deeds = duty :=
  Protocol.stageAfter_eq_self fun deed hdeed =>
    Duty.after_of_not_isMilestone (h deed hdeed) duty deed.answer

/-! ## Programs that do nothing to the session as a whole -/

/-- Nothing that the program does concerns the session as a whole, and what it writes are such
lines. -/
abbrev Ordinary {β : Type} (lines : String → Prop) (program : Activity β) : Prop :=
  program.OnlyDoes fun action : Action =>
    ¬ action.IsMilestone ∧ ∀ line, action = .write line → lines line

section Ordinary

variable {β : Type} {lines : String → Prop}

theorem ordinary_perform {action : Action} {next : action.Answer → Activity β}
    (haction : ¬ action.IsMilestone) (hwrite : ∀ line, action ≠ .write line)
    (hnext : ∀ answer, Ordinary lines (next answer)) :
    Ordinary lines (perform action >>= next) :=
  ⟨⟨haction, fun line heq => absurd heq (hwrite line)⟩, hnext⟩

theorem ordinary_publish {event : Event} {next : Unit → Activity β} (hevent : event ≠ .exited)
    (hnext : Ordinary lines (next ())) : Ordinary lines (publish event >>= next) :=
  ordinary_perform hevent nofun fun _ => hnext

theorem Ordinary.not_isMilestone {program : Activity β} (h : Ordinary lines program) :
    program.OnlyDoes fun action : Action => ¬ action.IsMilestone :=
  Program.OnlyDoes.mono h fun _ haction => haction.1

theorem Ordinary.follows {program : Activity β} (h : Ordinary lines program) (duty : Duty) :
    program.Follows duties duty fun _ last => last = duty :=
  h.not_isMilestone.follows (fun _ haction => Duty.permits_of_not_isMilestone haction duty)
    fun _ answer haction => Duty.after_of_not_isMilestone haction duty answer

/-- What a command does that was admitted does not concern the session as a whole. -/
theorem Action.Exchanges.ordinary {action : Action} (h : action.Exchanges lines) :
    ¬ action.IsMilestone ∧ ∀ line, action = .write line → lines line := by
  cases action with
  | write line =>
      refine ⟨id, ?_⟩
      rintro _ ⟨⟩
      exact h
  | publish event => exact ⟨h, nofun⟩
  | _ => exact ⟨by first | exact id | exact absurd h id, nofun⟩

theorem ordinary_writeFault (fault : Fault) (claimed : Bool) :
    Ordinary lines (writeFault fault claimed) :=
  (writeFault_exchanges fault claimed).mono fun _ haction => haction.ordinary

section Line

variable {line : String} (hline : lines line)

include hline

theorem ordinary_admitted (config : Config) (limit : Nat) :
    Ordinary lines (admitted config line limit) := by
  refine (admitted_exchanges hline config limit).mono ?_
  rintro _ (haction | rfl)
  · exact haction.ordinary
  · exact ⟨id, nofun⟩

theorem ordinary_runCommand (config : Config) (limit : Nat) :
    Ordinary lines (runCommand config line limit) := by
  refine ordinary_perform id nofun fun _ => (ordinary_admitted hline config limit).bind ?_
  intro outcome
  exact ordinary_perform id nofun fun _ => trivial

theorem ordinary_tryRunCommand (config : Config) (limit : Nat) :
    Ordinary lines (tryRunCommand config line limit) := by
  refine ordinary_perform id nofun ?_
  intro granted
  cases granted with
  | true =>
      refine (ordinary_admitted hline config limit).bind ?_
      intro outcome
      exact ordinary_perform id nofun fun _ => trivial
  | false => trivial

end Line

theorem ordinary_settle (interval attempts : Nat) :
    Ordinary lines (settle interval attempts) := by
  induction attempts with
  | zero =>
      refine ordinary_perform id nofun ?_
      intro attempt
      cases attempt <;> trivial
  | succ attempts ih =>
      refine ordinary_perform id nofun ?_
      intro attempt
      cases attempt with
      | sent => exact ih
      | _ => trivial

theorem ordinary_interrupt (config : Config) : Ordinary lines (interrupt config) := by
  refine ordinary_perform id nofun ?_
  intro exited
  cases exited with
  | true => trivial
  | false =>
      refine ordinary_perform id nofun ?_
      intro attempt
      cases attempt with
      | sent => exact ordinary_settle _ _
      | _ => trivial

theorem ordinary_pause (hline : lines "-exec-interrupt") (config : Config) :
    Ordinary lines (pause config) := by
  unfold pause
  split
  · exact ordinary_runCommand hline config _
  · exact ordinary_interrupt config

theorem ordinary_warmUp (config : Config) {commands : List String}
    (hlines : ∀ command ∈ commands, lines (commandLine command [])) :
    Ordinary lines (warmUp config commands) := by
  induction commands with
  | nil => trivial
  | cons command rest ih =>
      obtain ⟨hcommand, hrest⟩ := List.forall_mem_cons.mp hlines
      refine (ordinary_runCommand hcommand config _).bind ?_
      intro outcome
      split
      · exact ih hrest
      · trivial

theorem ordinary_comeUp {plan : Plan}
    (hlines : ∀ command ∈ plan.config.warmUp plan.target, lines (commandLine command [])) :
    Ordinary lines (comeUp plan) := by
  refine ordinary_perform id nofun ?_
  intro heard
  cases heard with
  | true => exact ordinary_warmUp _ hlines
  | false =>
      refine ordinary_perform id nofun ?_
      intro exited
      cases exited <;> trivial

theorem ordinary_whenCommanded {program : Activity Outcome} (h : Ordinary lines program) :
    Ordinary lines (whenCommanded program) := by
  refine ordinary_perform id nofun ?_
  intro enabled
  cases enabled with
  | true => exact h
  | false =>
      refine ordinary_perform id nofun ?_
      intro exited
      cases exited <;> trivial

theorem ordinary_call (config : Config) (request : Call) :
    Ordinary (fun _ => True) (call config request) := by
  refine ordinary_whenCommanded ?_
  cases request with
  | pause => exact ordinary_pause trivial config
  | _ => exact ordinary_runCommand trivial config _

theorem ordinary_set (config : Config) (settings : List String) :
    Ordinary (fun _ => True) (Session.set config settings) := by
  induction settings with
  | nil => trivial
  | cons setting rest ih =>
      refine (ordinary_whenCommanded (ordinary_runCommand trivial config _)).bind ?_
      intro outcome
      split
      · exact ih.bind fun _ => trivial
      · trivial

theorem ordinary_handleResult (outcome : Outcome) : Ordinary lines (handleResult outcome) :=
  ordinary_perform id nofun fun _ => ordinary_perform id nofun fun _ => trivial

theorem ordinary_handleRecord (record : Record) : Ordinary lines (handleRecord record) := by
  cases record with
  | result outcome =>
      simp only [handleRecord]
      split
      · exact ordinary_publish (by simp) (ordinary_handleResult outcome)
      · exact ordinary_handleResult outcome
  | exec record => exact ordinary_perform id (by simp) fun _ => ordinary_publish (by simp) trivial
  | console text =>
      simp only [handleRecord]
      split
      · exact ordinary_perform id (by simp) fun _ => ordinary_publish (by simp) trivial
      · exact ordinary_publish (by simp) trivial
  | notify | log | target => exact ordinary_publish (by simp) trivial

theorem ordinary_handleLine (line : String) : Ordinary lines (handleLine line) := by
  unfold handleLine
  refine ordinary_perform id (by simp) fun _ => ordinary_publish (by simp) ?_
  cases Record.read line with
  | error failure => trivial
  | ok record =>
      cases record with
      | none => trivial
      | some record => exact ordinary_handleRecord record

end Ordinary

/-! ## Programs that fulfil their duties -/

/-- The program fulfils its duties, and leaves the actor with the duty that it had. -/
def FulfilsFrom {β : Type} (duty : Duty) (program : Activity β) : Prop :=
  program.Follows duties duty fun _ last => last = duty

/-- The program fulfils its duties, and leaves the actor free. -/
abbrev Dutiful {β : Type} (program : Activity β) : Prop :=
  FulfilsFrom .free program

section Dutiful

variable {β γ : Type}

theorem fulfilsFrom_pure (duty : Duty) (value : β) :
    FulfilsFrom duty (pure value : Activity β) :=
  rfl

theorem FulfilsFrom.bind {duty : Duty} {program : Activity β} {next : β → Activity γ}
    (h : FulfilsFrom duty program) (hnext : ∀ value, FulfilsFrom duty (next value)) :
    FulfilsFrom duty (program >>= next) := by
  refine Program.Follows.bind h ?_
  rintro value _ rfl
  exact hnext value

theorem fulfilsFrom_finish {duty : Duty} (h : duty = .free ∨ duty = .opening) :
    FulfilsFrom duty finish := by
  rcases h with rfl | rfl
  all_goals
    refine ⟨trivial, ?_⟩
    intro ended _
    cases ended with
    | true => exact ⟨trivial, fun _ _ => rfl⟩
    | false => rfl

theorem dutiful_finish : Dutiful finish :=
  fulfilsFrom_finish (.inl rfl)

/-- Who has forbidden commands releases the debugger, whatever becomes of the commands it gives. -/
theorem quit_follows (config : Config) :
    (quit config).Follows duties .closing fun _ last => last = .free := by
  have hrest : (do let _ ← tryRunCommand config "-gdb-exit" config.quitLimit
                   perform .closeInput
                   perform .terminate : Activity Unit).Follows duties .closing
      fun _ last => last = .free := by
    refine ((ordinary_tryRunCommand trivial config _ : Ordinary (fun _ => True) _).follows .closing).bind ?_
    rintro _ _ rfl
    exact ⟨trivial, fun _ _ => ⟨trivial, fun _ _ => rfl⟩⟩
  refine ⟨id, ?_⟩
  intro running _
  cases running with
  | true =>
      refine ((ordinary_pause trivial config : Ordinary (fun _ => True) _).follows .closing).bind ?_
      rintro _ _ rfl
      exact hrest
  | false => exact hrest

theorem dutiful_stop (config : Config) : Dutiful (stop config) := by
  refine ⟨trivial, ?_⟩
  intro allowed _
  cases allowed with
  | true =>
      refine (quit_follows config).bind ?_
      rintro _ _ rfl
      exact dutiful_finish
  | false => exact dutiful_finish

theorem bringUp_follows (plan : Plan) :
    (bringUp plan).Follows duties .linked fun _ last => last = .free := by
  have hcomeUp : Ordinary (fun _ => True) (comeUp plan) := ordinary_comeUp fun _ _ => trivial
  refine ⟨trivial, fun gone _ => ?_⟩
  cases gone
  case' true =>
    have hfinish : finish.Follows duties .opening fun _ last => last = .opening :=
      fulfilsFrom_finish (.inr rfl)
    refine hfinish.bind ?_
    rintro _ _ rfl
  -- from here on it does not matter whether the debugger was gone
  all_goals
    refine ⟨trivial, fun _ _ => ?_⟩
    refine (hcomeUp.follows .free).bind ?_
    rintro fault _ rfl
    cases fault with
    | some fault => exact (dutiful_stop plan.config).bind fun _ => fulfilsFrom_pure .free _
    | none => exact ⟨id, fun _ _ => rfl⟩

theorem dutiful_startConnected (plan : Plan) : Dutiful (startConnected plan) := by
  refine ⟨trivial, ?_⟩
  intro idle _
  cases idle with
  | true => exact ⟨trivial, fun _ _ => bringUp_follows plan⟩
  | false => rfl

theorem dutiful_start (plan : Plan) : Dutiful (start plan) := by
  refine ⟨trivial, ?_⟩
  intro idle _
  cases idle with
  | true =>
      refine ⟨trivial, ?_⟩
      intro fault _
      cases fault with
      | some fault => exact ⟨trivial, fun _ _ => rfl⟩
      | none => exact bringUp_follows plan
  | false => rfl

theorem dutiful_handleReading (channel : Channel) (reading : Stream.Reading) :
    Dutiful (handleReading channel reading) := by
  match channel, reading with
  | _, .line text => exact (ordinary_handleLine text : Ordinary (fun _ => True) _).follows .free
  | .output, .over => exact dutiful_finish
  | .error, .over => rfl

end Dutiful

/-! ## Requests -/

/-- Whether an operation concerns the session as a whole. -/
def Operation.Governs : Operation → Prop
  | start | startConnected | stop => True
  | call _ | set _ | command _ _ | tryCommand _ _ => False

/-- Whether a request concerns the session as a whole. -/
def Request.Governs : Request → Prop
  | operation asked => asked.Governs
  | ended => True
  | result _ | line _ => False

/-- Whether an operation starts the session. -/
def Operation.Starts : Operation → Prop
  | start | startConnected => True
  | stop | call _ | set _ | command _ _ | tryCommand _ _ => False

/-- Whether a request starts the session. -/
def Request.Starts : Request → Prop
  | operation asked => asked.Starts
  | result _ | line _ | ended => False

theorem Operation.ordinary {operation : Operation} (h : ¬ operation.Governs) (plan : Plan) :
    Ordinary (fun _ => True) (operation.program plan) := by
  have hpure {δ : Type} {program : Activity δ} (hprogram : Ordinary (fun _ => True) program)
      (reply : δ → Reply) : Ordinary (fun _ => True) (do return reply (← program)) :=
    hprogram.bind fun _ => trivial
  cases operation with
  | start | startConnected | stop => exact absurd trivial h
  | call request => exact hpure (ordinary_call plan.config request) _
  | set settings => exact hpure (ordinary_set plan.config settings) _
  | command line limit => exact hpure (ordinary_runCommand trivial plan.config limit) _
  | tryCommand line limit => exact hpure (ordinary_tryRunCommand trivial plan.config limit) _

theorem Request.ordinary {request : Request} (h : ¬ request.Governs) (plan : Plan) :
    Ordinary (fun _ => True) (request.program plan) := by
  cases request with
  | operation operation => exact operation.ordinary h plan
  | ended => exact absurd trivial h
  | result outcome => exact ordinary_handleResult outcome
  | line text => exact (ordinary_handleLine text).bind fun _ => trivial

/-- What is ordinary begins no start. -/
theorem Ordinary.onlyDoes {β : Type} {program : Activity β} (h : Ordinary (fun _ => True) program) :
    program.OnlyDoes fun action : Action => action ≠ .beginStart :=
  h.mono fun _ haction hbegin => haction.1 (hbegin ▸ trivial)

theorem finish_onlyDoes {permitted : Action → Prop} (hends : permitted .markExited)
    (htells : permitted (.publish .exited)) : finish.OnlyDoes permitted := by
  refine ⟨hends, ?_⟩
  intro ended
  cases ended with
  | true => exact ⟨htells, fun _ => trivial⟩
  | false => trivial

theorem quit_onlyDoes (config : Config) :
    (quit config).OnlyDoes fun action : Action => action ≠ .beginStart := by
  have hrest : (do let _ ← tryRunCommand config "-gdb-exit" config.quitLimit
                   perform .closeInput
                   perform .terminate : Activity Unit).OnlyDoes
      fun action : Action => action ≠ .beginStart :=
    (ordinary_tryRunCommand trivial config _).onlyDoes.bind fun _ =>
      ⟨nofun, fun _ => ⟨nofun, fun _ => trivial⟩⟩
  refine ⟨nofun, ?_⟩
  intro running
  cases running with
  | true => exact (ordinary_pause trivial config).onlyDoes.bind fun _ => hrest
  | false => exact hrest

theorem stop_onlyDoes (config : Config) :
    (stop config).OnlyDoes fun action : Action => action ≠ .beginStart := by
  refine ⟨nofun, ?_⟩
  intro allowed
  cases allowed with
  | true => exact (quit_onlyDoes config).bind fun _ => finish_onlyDoes nofun nofun
  | false => exact finish_onlyDoes nofun nofun

/-- Only who asks for a start begins one. -/
theorem Request.onlyDoes {request : Request} (h : ¬ request.Starts) (plan : Plan) :
    (request.program plan).OnlyDoes fun action : Action => action ≠ .beginStart := by
  by_cases hgoverns : request.Governs
  · cases request with
    | ended => exact (finish_onlyDoes nofun nofun).bind fun _ => trivial
    | result | line => exact absurd hgoverns id
    | operation operation =>
        cases operation with
        | start | startConnected => exact absurd trivial h
        | stop => exact (stop_onlyDoes plan.config).bind fun _ => trivial
        | _ => exact absurd hgoverns id
  · exact (Request.ordinary hgoverns plan).onlyDoes

/-- Who forbids commands without asking for a start asks for a stop. -/
theorem Request.eq_stop {request : Request} {plan : Plan} (hstarts : ¬ request.Starts)
    (hforbids : ¬ (request.program plan).OnlyDoes fun action : Action =>
      action ≠ .disableCommands) : request = .operation .stop := by
  by_cases hgoverns : request.Governs
  · cases request with
    | operation operation =>
        cases operation with
        | stop => rfl
        | start | startConnected => exact absurd trivial hstarts
        | _ => exact absurd hgoverns id
    | ended =>
        have hfinish : finish.OnlyDoes fun action : Action => action ≠ .disableCommands :=
          finish_onlyDoes nofun nofun
        have hended : (Request.program plan .ended).OnlyDoes fun action : Action =>
            action ≠ .disableCommands := hfinish.bind fun _ => trivial
        exact absurd hended hforbids
    | result | line => exact absurd hgoverns id
  · refine absurd ((Request.ordinary hgoverns plan).mono ?_) hforbids
    rintro action haction rfl
    exact haction.1 trivial

theorem Operation.dutiful (plan : Plan) (operation : Operation) :
    Dutiful (operation.program plan) := by
  cases operation with
  | start => exact (dutiful_start plan).bind fun _ => fulfilsFrom_pure .free _
  | startConnected => exact (dutiful_startConnected plan).bind fun _ => fulfilsFrom_pure .free _
  | stop => exact (dutiful_stop plan.config).bind fun _ => fulfilsFrom_pure .free _
  | call | set | command | tryCommand => exact (Operation.ordinary id plan).follows .free

theorem Request.dutiful (plan : Plan) (request : Request) : Dutiful (request.program plan) := by
  cases request with
  | operation operation => exact operation.dutiful plan
  | ended => exact dutiful_finish.bind fun _ => fulfilsFrom_pure .free _
  | result | line => exact (Request.ordinary id plan).follows .free

/-! ## Runs -/

/-- The duty of an actor, by what it has done. -/
abbrev dutyOf (actor : Actor) (history : History) : Duty :=
  stageOf duties .free actor history

/-- Whether what happened concerns the session as a whole. -/
def Occurrence.IsMilestone : Occurrence → Prop
  | .did _ deed => deed.action.IsMilestone
  | .gaveUp _ deed => deed.action.IsMilestone
  | .printed _ _ => False

theorem Occurrence.isMilestone_iff {occurrence : Occurrence} {actor : Actor}
    {deed : Deed interface} (h : occurrence.deedOf? actor = some deed) :
    occurrence.IsMilestone ↔ deed.action.IsMilestone := by
  cases occurrence with
  | happened => cases h
  | did other | gaveUp other =>
      obtain ⟨-, rfl⟩ := by simpa [Occurrence.deedOf?] using h
      exact Iff.rfl

/-- What concerns the session as a whole was done before what does not. -/
theorem mem_of_aside {history later : History} (hlater : later = history ∨
      ∃ occurrence : Occurrence, later = history ++ [occurrence] ∧ ¬ occurrence.IsMilestone)
    {step : Occurrence} (hmem : step ∈ later) (hstep : step.IsMilestone) : step ∈ history := by
  obtain rfl | ⟨occurrence, rfl, haside⟩ := hlater
  · exact hmem
  · refine (List.mem_append.mp hmem).resolve_right ?_
    intro hlast
    obtain rfl := List.mem_singleton.mp hlast
    exact haside hstep

/-- What does not concern the session as a whole leaves all duties alone. -/
theorem dutyOf_aside {history later : History} (hlater : later = history ∨
      ∃ occurrence : Occurrence, later = history ++ [occurrence] ∧ ¬ occurrence.IsMilestone)
    (actor : Actor) : dutyOf actor later = dutyOf actor history := by
  obtain rfl | ⟨occurrence, rfl, haside⟩ := hlater
  · rfl
  cases hdeed : occurrence.deedOf? actor with
  | none => exact stageOf_append_of_none hdeed history
  | some deed =>
      rw [Occurrence.isMilestone_iff hdeed] at haside
      exact (stageOf_append_of_some hdeed history).trans
        (Duty.after_of_not_isMilestone haside _ deed.answer)

theorem dutyOf_did {actor : Actor} {action : Action} {answer : action.Answer} (history : History) :
    dutyOf actor (history ++ [.did actor ⟨action, answer⟩]) =
      (dutyOf actor history).after action answer :=
  stageOf_append_of_some (deedOf?_did ..) history

theorem dutyOf_did_ne {actor other : Actor} (h : actor ≠ other) {deed : Deed interface}
    (history : History) : dutyOf other (history ++ [.did actor deed]) = dutyOf other history :=
  stageOf_append_of_none (deedOf?_eq_none (deedOf?_did ..) h) history

section Runs

variable {host : Host} {ρ α : Type} {program : ρ → Activity α} {c next : Chronicle host ρ α}

/-- The parties in the background fulfil their duties, and nobody has anything left to do about the
end of the process before it is reported. -/
structure Attended (session : Session) (history : History) : Prop where
  reader : ∀ channel, (session.readerTask channel).Follows duties
    (dutyOf (.reader channel) history) fun _ last => last = .free
  watcher : session.watcherTask.Follows duties (dutyOf .watcher history) fun _ last => last = .free
  unwatched : session.state.wire.gone = false → session.watcherTask = .done ()

/-- Whatever is done, the report that the process is gone is none of it. -/
theorem perform_gone {reaction : Option Fault} {action : Action} {state after : State}
    {answer : action.Answer} (h : state.perform reaction action = some (after, answer)) :
    after.wire.gone = state.wire.gone := by
  obtain ⟨⟨written, interrupts, hwire⟩, -⟩ := perform_wire h
  rw [hwire]
  cases action with
  | launch => cases reaction <;> rfl
  | watchExit =>
      simp only [Action.onWire, Wire.watch]
      split <;> rfl
  | _ => rfl

theorem giveUp_gone {reaction : Option Fault} {action : Action} {state after : State}
    {answer : action.Answer} (h : state.giveUp reaction action = some (after, answer)) :
    after.wire.gone = state.wire.gone := by
  obtain ⟨⟨written, interrupts, hwire⟩, -⟩ := giveUp_wire h
  rw [hwire]

theorem reportGone_gone (wire : Wire) : wire.reportGone.1.gone = true := by
  unfold Wire.reportGone
  split
  · assumption
  · rfl

/-- The session is told only once that the process is gone. -/
theorem gone_eq_false_of_told {wire : Wire} (h : wire.reportGone.2 = true) :
    wire.gone = false := by
  unfold Wire.reportGone at h
  split at h
  · cases h
  · rename_i hgone
    simpa using hgone

/-- What callers do and what the process prints leaves the parties in the background alone. -/
theorem Attended.aside {session next : Session} {history : History} {occurrence : Occurrence}
    (h : Attended session history)
    (hreaders : ∀ channel, next.readerTask channel = session.readerTask channel)
    (hwatcher : next.watcherTask = session.watcherTask)
    (hgone : next.state.wire.gone = session.state.wire.gone)
    (hread : ∀ channel, occurrence.deedOf? (.reader channel) = none)
    (hwatched : occurrence.deedOf? .watcher = none) :
    Attended next (history ++ [occurrence]) where
  reader channel := by
    rw [hreaders, dutyOf, stageOf_append_of_none (hread channel)]
    exact h.reader channel
  watcher := by
    rw [hwatcher, dutyOf, stageOf_append_of_none hwatched]
    exact h.watcher
  unwatched := by
    rw [hwatcher, hgone]
    exact h.unwatched

/-- A reader goes over to a task that its duty allows, and all others stay where they are. -/
theorem Attended.withReader {session : Session} {history later : History} {channel : Channel}
    {state : State} {task : Activity Unit} (h : Attended session history)
    (htask : task.Follows duties (dutyOf (.reader channel) later) fun _ last => last = .free)
    (hothers : ∀ actor, .reader channel ≠ actor → dutyOf actor later = dutyOf actor history)
    (hgone : state.wire.gone = session.state.wire.gone) :
    Attended (session.withReader channel state task) later where
  reader other := by
    rw [readerTask_withReader]
    split
    · rename_i heq
      subst heq
      exact htask
    · rename_i hne
      rw [hothers (.reader other) (by simpa using hne)]
      exact h.reader other
  watcher := by
    rw [watcherTask_withReader, hothers .watcher nofun]
    exact h.watcher
  unwatched := by
    rw [watcherTask_withReader, withReader_state, hgone]
    exact h.unwatched

/-- The parties in the background go on as they have to. -/
theorem Attended.of_change (h : Attended c.session c.history) (hchange : Change program c next) :
    Attended next.session next.history := by
  cases hchange with
  | request | router => exact ⟨h.reader, h.watcher, h.unwatched⟩
  | close channel =>
      refine ⟨h.reader, h.watcher, ?_⟩
      cases channel <;> exact h.unwatched
  | print channel chunk =>
      refine h.aside (fun _ => rfl) rfl ?_ (fun _ => rfl) rfl
      cases channel <;> rfl
  | act hcaller hperform =>
      refine h.aside (fun _ => rfl) rfl (perform_gone hperform) (fun _ => ?_) ?_ <;>
        simp [Occurrence.deedOf?]
  | expire hcaller hwait hgiveUp =>
      refine h.aside (fun _ => rfl) rfl (giveUp_gone hgiveUp) (fun _ => ?_) ?_ <;>
        simp [Occurrence.deedOf?]
  | @reader channel action rest state answer htask hperform =>
      have hfollows := h.reader channel
      rw [htask] at hfollows
      refine h.withReader ?_ (fun actor hne => dutyOf_did_ne hne _) (perform_gone hperform)
      rw [dutyOf_did]
      exact hfollows.2 answer trivial
  | @read channel stream reading htask hread =>
      -- the reader was free, since it had nothing left to do
      have hfree := h.reader channel
      rw [htask, Program.follows_done] at hfree
      refine h.withReader ?_ (fun _ _ => rfl) ?_
      · rw [hfree]
        exact dutiful_handleReading channel reading
      · cases channel <;> rfl
  | @watcher action rest state answer htask hperform =>
      have hfollows := h.watcher
      rw [htask] at hfollows
      refine ⟨fun channel => ?_, ?_, fun hgone => ?_⟩
      · have hne : Actor.watcher ≠ .reader channel := by simp
        rw [dutyOf_did_ne hne]
        exact h.reader channel
      · rw [dutyOf_did]
        exact hfollows.2 answer trivial
      · -- before the report the watcher has nothing to do
        have hidle := h.unwatched ((perform_gone hperform).symm.trans hgone)
        rw [htask] at hidle
        cases hidle
  | reportGone =>
      refine ⟨h.reader, ?_, fun hgone => ?_⟩
      · show (if c.session.state.wire.reportGone.2 then finish else
          c.session.watcherTask).Follows _ _ _
        split
        · rename_i htold
          -- the watcher was free until now
          have hfree := h.watcher
          rw [h.unwatched (gone_eq_false_of_told htold), Program.follows_done] at hfree
          rw [hfree]
          exact dutiful_finish
        · exact h.watcher
      · have hreported : c.session.state.wire.reportGone.1.gone = false := hgone
        rw [reportGone_gone] at hreported
        cases hreported

theorem Possible.attended (h : Possible program c) : Attended c.session c.history := by
  induction h with
  | fresh =>
      have hidle : (Program.done () : Activity Unit).Follows duties .free fun _ last => last = .free :=
        rfl
      refine ⟨fun channel => ?_, hidle, fun _ => rfl⟩
      cases channel <;> exact hidle
  | turn h turn hturn ih => exact ih.of_change (Chronicle.change_of_turn? hturn)

/-- What an actor does next is permitted by its duty. -/
theorem Possible.permits_duty (h : Possible program c) (hprogram : ∀ r, Dutiful (program r))
    (hchange : Change program c next) {occurrence : Occurrence}
    (hlast : next.history = c.history ++ [occurrence]) {actor : Actor} {deed : Deed interface}
    (hdeed : occurrence.deedOf? actor = some deed) :
    (dutyOf actor c.history).Permits deed.action := by
  cases hchange with
  | request | read | router | close | reportGone => simp at hlast
  | print =>
      obtain rfl := by simpa using hlast
      cases hdeed
  | act hcaller | expire hcaller =>
      obtain rfl := by simpa using hlast
      obtain ⟨rfl, rfl⟩ := by simpa [Occurrence.deedOf?] using hdeed
      exact h.accounted.permits (fun r => ⟨_, hprogram r⟩) hcaller fun _ _ => trivial
  | @reader channel action rest state answer htask hperform =>
      obtain rfl := by simpa using hlast
      obtain ⟨rfl, rfl⟩ := by simpa [Occurrence.deedOf?] using hdeed
      have hfollows := htask ▸ h.attended.reader channel
      exact hfollows.1
  | watcher htask hperform =>
      obtain rfl := by simpa using hlast
      obtain ⟨rfl, rfl⟩ := by simpa [Occurrence.deedOf?] using hdeed
      have hfollows := htask ▸ h.attended.watcher
      exact hfollows.1

/-- What an actor has done was permitted by its duty at the time. -/
theorem Possible.keeps_duty (h : Possible program c) (hprogram : ∀ r, Dutiful (program r))
    (actor : Actor) : duties.Keeps .free (deedsOf actor c.history) := by
  induction h with
  | fresh => trivial
  | @turn c next h turn hturn ih =>
      have hchange := Chronicle.change_of_turn? hturn
      rcases hchange.effect with ⟨hsame, -⟩ | ⟨occurrence, hlast, -⟩
      · rw [hsame]
        exact ih
      · rw [hlast]
        cases hdeed : occurrence.deedOf? actor with
        | none =>
            rw [deedsOf_append_of_none hdeed]
            exact ih
        | some deed =>
            rw [deedsOf_append_of_some hdeed]
            exact Protocol.keeps_append.mpr
              ⟨ih, h.permits_duty hprogram hchange hlast hdeed, trivial⟩

/-- Whoever comes to owe something of a kind has done the one thing that leads to it. -/
theorem mem_of_owes {owes : Duty → Prop} {key : Deed interface}
    (hstep : ∀ {duty : Duty} {action : Action} (answer : action.Answer), ¬ owes duty →
      duty.Permits action → (⟨action, answer⟩ : Deed interface) ≠ key →
        ¬ owes (duty.after action answer))
    {duty : Duty} {deeds : List (Deed interface)} (hkeeps : duties.Keeps duty deeds)
    (hduty : ¬ owes duty) (howes : owes (duties.stageAfter duty deeds)) : key ∈ deeds := by
  induction deeds generalizing duty with
  | nil => exact absurd howes hduty
  | cons deed rest ih =>
      by_cases hkey : deed = key
      · simp [hkey]
      · have hafter := hstep deed.answer hduty hkeeps.1 hkey
        exact List.mem_cons_of_mem _ (ih hkeeps.2 hafter howes)

/-- A caller that has got its answer is free. -/
theorem Possible.dutyOf_caller (h : Possible program c) (hprogram : ∀ r, Dutiful (program r))
    {n : Nat} {value : α} (hvalue : c.system.value? n = some value) :
    dutyOf (.caller n) c.history = .free := by
  obtain ⟨rest, hrest, hdone⟩ := Option.bind_eq_some_iff.mp hvalue
  obtain ⟨r, -, hleads⟩ := h.accounted.leads n rest hrest
  have hfollows := hleads.follows (fun _ _ => trivial) (hprogram r)
  cases rest with
  | act => cases hdone
  | done => exact hfollows

/-- Who owes something, and has done what only callers do, is a caller that has not got its answer
yet. -/
theorem Possible.exists_debtor (h : Possible program c) (hprogram : ∀ r, Dutiful (program r))
    {actor : Actor} (hduty : dutyOf actor c.history ≠ .free) {deed : Deed interface}
    (hmem : deed ∈ deedsOf actor c.history) (hdeed : ¬ deed.action.Reports) :
    ∃ n r rest, actor = .caller n ∧ c.requests[n]? = some r ∧
      (program r).Leads (deedsOf (.caller n) c.history) rest ∧ c.system.value? n = none := by
  cases actor with
  | reader | watcher => exact absurd (h.reports (by simp) _ hmem) hdeed
  | caller n =>
      cases hcaller : c.system.callers[n]? with
      | none =>
          have habsent : deedsOf (.caller n) c.history = [] :=
            h.accounted.absent n (List.getElem?_eq_none_iff.mp hcaller)
          rw [habsent] at hmem
          cases hmem
      | some rest =>
          obtain ⟨r, hrequest, hleads⟩ := h.accounted.leads n rest hcaller
          refine ⟨n, r, rest, rfl, hrequest, hleads, ?_⟩
          cases hvalue : c.system.value? n with
          | none => rfl
          | some value => exact absurd (h.dutyOf_caller hprogram hvalue) hduty

/-- Who opens a session is a caller that has begun its start, and that has not got its answer
yet. -/
theorem Possible.exists_starter (h : Possible program c) (hprogram : ∀ r, Dutiful (program r))
    {actor : Actor} (hopens : (dutyOf actor c.history).Opens) :
    ∃ n r, actor = .caller n ∧ c.requests[n]? = some r ∧
      ¬ (program r).OnlyDoes (fun action : Action => action ≠ .beginStart) ∧
      c.system.value? n = none := by
  have hbegun : (⟨.beginStart, true⟩ : Deed interface) ∈ deedsOf actor c.history :=
    mem_of_owes (fun answer hduty hpermits =>
      Duty.not_opens_after hduty hpermits answer) (h.keeps_duty hprogram actor) id hopens
  have hduty : dutyOf actor c.history ≠ .free := fun hfree => by simp [hfree, Duty.Opens] at hopens
  obtain ⟨n, r, rest, rfl, hrequest, hleads, hvalue⟩ := h.exists_debtor hprogram hduty hbegun id
  exact ⟨n, r, rfl, hrequest, fun hnever => (hleads.onlyDoes hnever).1 _ hbegun rfl, hvalue⟩

/-- Who releases the debugger of a session is a caller that has found commands possible and has
forbidden them, and that has not got its answer yet. -/
theorem Possible.exists_releaser (h : Possible program c) (hprogram : ∀ r, Dutiful (program r))
    {actor : Actor} (hreleases : (dutyOf actor c.history).Releases) :
    ∃ n r, actor = .caller n ∧ c.requests[n]? = some r ∧
      ¬ (program r).OnlyDoes (fun action : Action => action ≠ .disableCommands) ∧
      (⟨.disableCommands, true⟩ : Deed interface) ∈ deedsOf (.caller n) c.history ∧
      c.system.value? n = none := by
  have hdisabled : (⟨.disableCommands, true⟩ : Deed interface) ∈ deedsOf actor c.history :=
    mem_of_owes (fun answer hduty hpermits => Duty.not_releases_after hduty hpermits answer)
      (h.keeps_duty hprogram actor) id hreleases
  have hduty : dutyOf actor c.history ≠ .free := fun hfree => by
    simp [hfree, Duty.Releases] at hreleases
  obtain ⟨n, r, rest, rfl, hrequest, hleads, hvalue⟩ := h.exists_debtor hprogram hduty hdisabled id
  exact ⟨n, r, rfl, hrequest, fun hnever => (hleads.onlyDoes hnever).1 _ hdisabled rfl, hdisabled,
    hvalue⟩

/-- A caller whose request does not concern the session as a whole is free all the time. -/
theorem Possible.dutyOf_ordinary (h : Possible program c) {n : Nat} {r : ρ}
    (hrequest : c.requests[n]? = some r) {lines : String → Prop} (hr : Ordinary lines (program r)) :
    dutyOf (.caller n) c.history = .free := by
  obtain ⟨rest, -, hleads⟩ := h.leads_of_request hrequest
  exact stageAfter_duties (hleads.onlyDoes hr.not_isMilestone).1 .free

end Runs

end DebugBridge.Session
