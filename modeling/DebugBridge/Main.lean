import DebugBridge.Bridge.Server
import DebugBridge.Session.Launch
import DebugBridge.Text.Lines

/-!
# The bridge as a program

Requests come in on standard input, one a line; answers and notifications go out on standard output.
The session in place is stopped when the input ends.

This program starts no other one, so that a start of a session fails at its launch as that of a
program that cannot be executed, and no action of a request ever has to wait for a debugger.
-/

namespace DebugBridge.Main

/-- Whether a path leads to a directory; `none` if it leads nowhere. -/
def isDirectory? (path : String) : IO (Option Bool) := do
  try
    return some (← (← IO.FS.realPath path).isDir)
  catch _ =>
    return none

/-- Why a program is not started in a directory. -/
def startError (directory : Option String) (program : String) : IO Session.StartError := do
  if !program.toList.contains '/' then
    return .missing
  let path :=
    if program.startsWith "/" then program
    else ((directory.map (· ++ "/")).getD "") ++ program
  let pieces := Text.Path.pieces path.toList
  for count in List.range pieces.length do
    if (← isDirectory? (String.ofList (Text.Path.join (pieces.take count)))) == some false then
      return .notDirectory
  return if (← isDirectory? path).isSome then .denied else .missing

/-- What is known about the machine, as far as a launch asks for it. -/
def machineFor (plan : Session.Plan) : IO Session.Machine := do
  let present ← match plan.directory? with
    | some directory => (· == some true) <$> isDirectory? directory
    | none => pure false
  let error ← startError plan.directory? plan.config.debugger
  return {
    isDirectory := fun _ => present
    isFile := fun _ => false
    startError? := fun _ _ => some error }

/-- The fault with which the machine answers an action. -/
def reactionTo (state : Bridge.State) : Bridge.Action → IO (Option Fault)
  | .on id .launch => do
      match state.members[id]? with
      | some member => return member.plan.launchFault? (← machineFor member.plan)
      | none => return none
  | _ => return none

/-- Runs a program to its end. -/
def run {α : Type} : Bridge.Activity α → Bridge.State → IO (Bridge.State × α)
  | .done value, state => return (state, value)
  | .act action next, state => do
      let reaction ← reactionTo state action
      match state.perform reaction action <|> state.giveUp reaction action with
      | some (state, answer) => run (next answer) state
      | none => throw (IO.userError "a request waits for ever")

/-- What can happen to a session that never had a debugger. -/
def happenings (id : Nat) : List Bridge.Happening :=
  [.on id (.advance .watcher), .on id (.advance .router), .forward id]

/-- Lets things happen until nothing can. -/
partial def settle (state : Bridge.State) : Bridge.State :=
  let possible := (List.range state.members.length).flatMap happenings
  match possible.findSome? fun happening => state.happen (fun _ => false) happening with
  | some next => settle next
  | none => state

/-- Runs a program and prints what it has pushed to the host. -/
def serve {α : Type} (program : Bridge.Activity α) (state : Bridge.State) :
    IO (Bridge.State × α) := do
  let (after, answer) ← run program state
  let after := settle after
  for push in after.pushed.drop state.pushed.length do
    IO.println push.line
  return (after, answer)

/-- A line of input without its end. -/
def withoutEnd (line : String) : String :=
  (Text.linesOf line).headD ""

/-- Serves the lines of the input. -/
partial def loop (surroundings : Bridge.Surroundings) (input : IO.FS.Stream)
    (state : Bridge.State) : IO Unit := do
  let line ← input.getLine
  if line.isEmpty then
    let _ ← serve Bridge.shutDown state
  else
    let (state, answer) ← serve (Bridge.serve surroundings (withoutEnd line)) state
    if let some text := answer then
      IO.println text
    (← IO.getStdout).flush
    loop surroundings input state

def variableNames : List String := ["GDB_PATH", "GDB_TIMEOUT_MS", "GDB_ASYNC"]

/-- The values of the environment variables that are set. -/
def readEnvironment : IO (List (String × String)) :=
  variableNames.filterMapM fun name => do return (← IO.getEnv name).map fun value => (name, value)

end DebugBridge.Main

/-- Serves standard input up to its end. -/
def main : IO Unit := do
  let environment ← DebugBridge.Main.readEnvironment
  let surroundings : DebugBridge.Bridge.Surroundings :=
    { environment := fun name => environment.lookup name
      label := fun id => "session-" ++ toString (id + 1) }
  DebugBridge.Main.loop surroundings (← IO.getStdin) {}
