import DebugBridge.Bridge.Action
import DebugBridge.Bridge.Params
import DebugBridge.Codec.Phase
import DebugBridge.Text.Blank

/-!
# Serving requests

What a bridge does with a line from the host.  A request with an identifier is answered by one
line; a request without one has the same effects and no answer.
-/

namespace DebugBridge.Bridge

open Session (Plan Call)

/-- What a bridge takes from its surroundings. -/
structure Surroundings where
  environment : String → Option String
  /-- how a session is called, by its number -/
  label : Nat → String

abbrev perform (action : Action) : Activity action.Answer :=
  Program.perform (I := interface) action

/-- Runs a program of a session. -/
def onSession {α : Type} (id : Nat) (program : Session.Activity α) : Activity α :=
  program.lift (J := interface) (Action.on id) fun _ answer => answer

/-- What a request gets: a result, or a refusal. -/
abbrev Answer := Except Refusal Json

/-- Answers by a program on the session in place. -/
def withTenant (program : Tenant → Activity Answer) : Activity Answer := do
  match ← perform .current with
  | none => return .error .noSession
  | some tenant => program tenant

/-! ## Sessions -/

/-- The refusal of a second session. -/
def alreadyRunning : Refusal :=
  .startFailed "GDB session already running. Use session/stop first."

/-- Stops a session that nobody refers to any more. -/
def discard : Option Tenant → Activity Unit
  | none => return
  | some tenant => onSession tenant.id (Session.stop tenant.plan.config)

/-- Puts a session in place that has come up, or stops it when another one is there. -/
def settleIn (surroundings : Surroundings) (tenant : Tenant) : Activity Answer := do
  match ← perform (.place tenant.id) with
  | .occupied =>
      discard (some tenant)
      return .error alreadyRunning
  | .placed phase replaced =>
      discard replaced
      return .ok (.object [("session_id", .string (surroundings.label tenant.id)),
        ("state", phase.toJson)])

/-- Puts a session in place that was made elsewhere. -/
def attach (id : Nat) : Activity Unit := do
  discard (← perform (.replace id))

/-- Makes a session and starts it. -/
def start (surroundings : Surroundings) (params : StartParams) : Activity Answer := do
  if ← perform .hasLiveSession then
    return .error alreadyRunning
  let plan := params.plan surroundings.environment
  let id ← perform (.create plan)
  match ← onSession id (Session.start plan) with
  | .error fault =>
      discard (some ⟨id, plan⟩)
      return .error (.startFailed fault.message)
  | .ok () => settleIn surroundings ⟨id, plan⟩

/-- Takes the session out of its place and stops it. -/
def stop : Activity Answer := do
  match ← perform .take with
  | none => return .error .noSession
  | some tenant =>
      onSession tenant.id (Session.stop tenant.plan.config)
      let phase ← perform (.on tenant.id .phase)
      return .ok (.object [("state", phase.toJson)])

/-- Says where the session in place is. -/
def status (surroundings : Surroundings) : Activity Answer := do
  match ← perform .current with
  | none => return .ok (.object [("state", Session.Phase.idle.toJson)])
  | some tenant =>
      let phase ← perform (.on tenant.id .phase)
      let running ← perform (.on tenant.id .isRunning)
      let breakpoint ← perform (.on tenant.id .currentBreakpoint)
      return .ok (.object [("current_breakpoint", .option Breakpoint.toJson breakpoint),
        ("running", .bool running), ("session_id", .string (surroundings.label tenant.id)),
        ("state", phase.toJson)])

/-! ## Calls -/

/-- The outcome of a call on the session in place. -/
def callTenant (tenant : Tenant) (call : Call) : Activity Outcome :=
  onSession tenant.id (Session.call tenant.plan.config call)

/-- Answers a call by its outcome, together with a view of it. -/
def viewed (name : String) (view : Outcome → Json) (call : Call) : Activity Answer :=
  withTenant fun tenant => do
    let outcome ← callTenant tenant call
    return .ok (.object [(name, view outcome), ("result", outcome.toJson)])

/-- Answers a call by its outcome. -/
def answered (call : Tenant → Call) : Activity Answer :=
  withTenant fun tenant => do
    let outcome ← callTenant tenant (call tenant)
    return .ok outcome.toJson

def insert (breakpoint : Breakpoint) : Activity Answer :=
  withTenant fun tenant => do
    let outcome ← callTenant tenant (.insert breakpoint)
    match Outcome.decoder outcome.toJson.normal with
    | .error e => return .error (.internal e.message)
    | .ok outcome =>
        if outcome.isSuccess then
          perform (.remember breakpoint)
        return .ok (.object [("breakpoint", .option BreakpointReport.toJson outcome.breakpoint?),
          ("result", outcome.toJson)])

def remove (breakpoint : Breakpoint) : Activity Answer :=
  withTenant fun tenant => do
    let outcome ← callTenant tenant (.remove breakpoint)
    perform (.forget breakpoint)
    return .ok outcome.toJson

def Ask.answer (surroundings : Surroundings) : Ask → Activity Answer
  | start params => Bridge.start surroundings params
  | stop => Bridge.stop
  | status => Bridge.status surroundings
  | call c => answered fun _ => c
  | command text limit =>
      answered fun tenant => .command text (limit.getD tenant.plan.config.commandLimit)
  | insert breakpoint => Bridge.insert breakpoint
  | remove breakpoint => Bridge.remove breakpoint
  | settings list =>
      withTenant fun tenant => do
        let outcomes ← onSession tenant.id (Session.set tenant.plan.config list)
        return .ok (.array (outcomes.map Outcome.toJson))
  | frames => viewed "frames" (fun o => .array (o.frames.map Frame.toJson)) .frames
  | locals => viewed "locals" (fun o => .array (o.locals.map Variable.toJson)) .locals

def Request.answer (surroundings : Surroundings) (request : Request) : Activity Answer :=
  match Ask.read request.method request.params with
  | .error refusal => return .error refusal
  | .ok ask => ask.answer surroundings

/-- The line that answers a request, if one is due. -/
def reply (id : Option RequestId) (answer : Answer) : Option String :=
  id.map fun id => match answer with
    | .ok result => resultLine id result
    | .error refusal => refusalLine (some id) refusal

/-- Serves a line from the host; the answer is the line that goes back, if any. -/
def handleLine (surroundings : Surroundings) (line : String) : Activity (Option String) :=
  match Request.read? line with
  | none => return some (refusalLine none .unreadable)
  | some request => do return reply request.id (← request.answer surroundings)

def Push.notification : Push → Notification
  | event e => .ofEvent e
  | navigate path line => .navigate path line

def Push.line (push : Push) : String :=
  push.notification.line

/-- Serves a line of input, of which blank ones are skipped. -/
def serve (surroundings : Surroundings) (line : String) : Activity (Option String) :=
  if Text.isAllBlank line then return none else handleLine surroundings line

/-- Stops the session in place when the input has ended. -/
def shutDown : Activity Unit := do
  let _ ← stop

end DebugBridge.Bridge
