import DebugBridge.Session.Reader

/-!
# Operations of a session

The calls that a session offers: start and stop, and one for each thing a debugger can be asked to
do.  A session starts once; when the start fails, or when it is stopped, it has ended for good.
-/

namespace DebugBridge.Session

/-- What is debugged, and how. -/
structure Plan where
  config : Config
  target : Target
deriving DecidableEq, Repr

/-! ## Stop -/

/-- Asks the debugger to quit and releases it. -/
def quit (config : Config) : Activity Unit := do
  if ← perform .isRunning then
    let _ ← pause config
  let _ ← tryRunCommand config "-gdb-exit" config.quitLimit
  perform .closeInput
  perform .terminate

/-- Ends the session; further calls do nothing. -/
def stop (config : Config) : Activity Unit := do
  if ← perform .disableCommands then
    quit config
  finish

/-! ## Start -/

/-- Whether a command of the warm-up was accepted. -/
def isAccepted (outcome : Outcome) : Bool :=
  outcome.status == .done || outcome.status == .connected

/-- Runs the commands of the warm-up up to the first that is not accepted. -/
def warmUp (config : Config) : List String → Activity (Option Fault)
  | [] => return none
  | command :: rest => do
      let outcome ← execute config command
      if isAccepted outcome then
        warmUp config rest
      else
        return some (.warmUp command outcome.status)

/-- Why a debugger did not come up that printed nothing. -/
def silence (config : Config) : Activity Fault := do
  if ← perform .isExited then
    return .exited
  return .readyTimeout (Text.Elapsed.ofMillis config.readyLimit)

/-- Warms up a debugger once it has printed something. -/
def comeUp (plan : Plan) : Activity (Option Fault) := do
  if ← perform (.awaitOutput plan.config.readyLimit) then
    warmUp plan.config (plan.config.warmUp plan.target)
  else
    return some (← silence plan.config)

/-- Brings up a debugger that is connected; when that fails the session is stopped. -/
def bringUp (plan : Plan) : Activity (Except Fault Unit) := do
  if ← perform .watchExit then
    finish
  perform .enableCommands
  match ← comeUp plan with
  | some fault =>
      stop plan.config
      return .error fault
  | none =>
      let _ ← perform .finishStart
      return .ok ()

/-- Starts the session on a debugger that runs already. -/
def startConnected (plan : Plan) : Activity (Except Fault Unit) := do
  if ← perform .beginStart then
    perform .connect
    bringUp plan
  else
    return .error .alreadyStarted

/-- Starts the debugger and the session on it. -/
def start (plan : Plan) : Activity (Except Fault Unit) := do
  if ← perform .beginStart then
    match ← perform .launch with
    | some fault =>
        let _ ← perform .markExited
        return .error fault
    | none => bringUp plan
  else
    return .error .alreadyStarted

/-! ## Calls -/

/-- What a session can be asked to do while it goes on. -/
inductive Call
  | run
  | step
  | next
  | finish
  | continue
  | pause
  | frames
  | locals
  | print (symbol : String)
  | evaluate (expression : String)
  | insert (breakpoint : Breakpoint)
  | remove (breakpoint : Breakpoint)
  /-- a command as it is, with a limit of its own -/
  | command (text : String) (limit : Nat)
deriving DecidableEq, Repr

/-- Answers a call by a program, once commands are possible. -/
def whenCommanded (program : Activity Outcome) : Activity Outcome := do
  if ← perform .commandsEnabled then
    program
  else if ← perform .isExited then
    return .sessionExited
  else
    return .notStarted

def Call.answer (config : Config) : Call → Activity Outcome
  | run => execute config "-exec-run"
  | step => execute config "-exec-step"
  | next => execute config "-exec-next"
  | finish => execute config "-exec-finish"
  | .continue => execute config "-exec-continue"
  | pause => Session.pause config
  | frames => execute config "-stack-list-frames"
  | locals => execute config "-stack-list-locals" ["1"]
  | print symbol => execute config "print" [symbol]
  | evaluate expression => execute config "-data-evaluate-expression" [expression]
  | insert breakpoint => execute config "-break-insert" [breakpoint.locationArgument]
  | remove breakpoint => execute config "clear" [breakpoint.locationArgument]
  | command text limit => runCommand config (commandLine text []) limit

def call (config : Config) (call : Call) : Activity Outcome :=
  whenCommanded (call.answer config)

/-- Gives settings as commands, up to the first that fails. -/
def set (config : Config) : List String → Activity (List Outcome)
  | [] => return []
  | setting :: rest => do
      let outcome ← whenCommanded (execute config setting)
      if outcome.isSuccess then
        return outcome :: (← set config rest)
      else
        return [outcome]

end DebugBridge.Session
