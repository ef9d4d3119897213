import DebugBridge.Interleaving
import DebugBridge.Session.Operation

/-!
# A session at work

A session together with the parties that work in its background: a reader for each stream of the
debugger, a watcher that waits for its process to be gone, and the router of events.  `advance?`
lets one of them take a single step, so that any order of steps can be described.
-/

namespace DebugBridge.Session

namespace State

/-- Performs the next action of a program, unless it has to wait. -/
def step? {α : Type} (state : State) : Activity α → Option (State × Activity α)
  | .done _ => none
  | .act action next => (state.perform none action).map fun (s, answer) => (s, next answer)

/-- Runs a program by itself, as long as it does not have to wait. -/
def run? {α : Type} (state : State) : Activity α → Option (State × α)
  | .done value => some (state, value)
  | .act action next =>
      match state.perform none action with
      | some (s, answer) => s.run? (next answer)
      | none => none

end State

/-- A party in the background of a session. -/
inductive Party
  | reader (channel : Channel)
  | watcher
  | router
deriving DecidableEq, Repr

end Session

open Session in
/-- A session with what its parties are doing. -/
structure Session where
  state : Session.State := {}
  /-- what the reader of the output is doing with its last line -/
  outputTask : Activity Unit := .done ()
  /-- what the reader of the error stream is doing with its last line -/
  errorTask : Activity Unit := .done ()
  watcherTask : Activity Unit := .done ()

namespace Session

def readerTask (session : Session) : Channel → Activity Unit
  | .output => session.outputTask
  | .error => session.errorTask

/-- The session in a state, with a reader doing something. -/
def withReader (channel : Channel) (state : State) (task : Activity Unit) (session : Session) :
    Session :=
  match channel with
  | .output => { session with state, outputTask := task }
  | .error => { session with state, errorTask := task }

/-- Lets a reader go on with its line, or read the next one. -/
def advanceReader? (channel : Channel) (session : Session) : Option Session :=
  match session.readerTask channel with
  | .act action next =>
      (session.state.step? (.act action next)).map fun (state, task) =>
        session.withReader channel state task
  | .done () =>
      if session.state.wire.connected then
        ((session.state.wire.stream channel).read?).map fun (stream, reading) =>
          session.withReader channel
            { session.state with wire := session.state.wire.setStream channel stream }
            (handleReading channel reading)
      else none

/-- Lets a party take a step, if it has something to do. -/
def advance? (host : Host) (session : Session) : Party → Option Session
  | .reader channel => session.advanceReader? channel
  | .watcher =>
      (session.state.step? session.watcherTask).map fun (state, task) =>
        { session with state, watcherTask := task }
  | .router =>
      (session.state.router.step? host).map fun router =>
        { session with state := { session.state with router } }

/-! ## What happens to a session -/

def onWire (change : Wire → Wire) (session : Session) : Session :=
  { session with state := { session.state with wire := change session.state.wire } }

def print (channel : Channel) (chunk : Chunk) : Session → Session :=
  onWire fun wire => wire.setStream channel ((wire.stream channel).print chunk)

def close (channel : Channel) : Session → Session :=
  onWire fun wire => wire.setStream channel (wire.stream channel).close

/-- The process of the debugger is reported gone; the watcher ends the session, the first time. -/
def reportGone (session : Session) : Session :=
  let (wire, told) := session.state.wire.reportGone
  { session with
    state := { session.state with wire }
    watcherTask := if told then Session.finish else session.watcherTask }

/-- Something that happens to a session without a call. -/
inductive Happening
  /-- a party in the background takes a step -/
  | advance (party : Party)
  | print (channel : Channel) (chunk : Chunk)
  | close (channel : Channel)
  /-- the process of the debugger is reported gone -/
  | reportGone
deriving DecidableEq, Repr

/-- Lets something happen, if it can. -/
def happen (host : Host) : Happening → Session → Option Session
  | .advance party, session => session.advance? host party
  | .print channel chunk, session => some (session.print channel chunk)
  | .close channel, session => some (session.close channel)
  | .reportGone, session => some session.reportGone

/-- The session with its state changed by an action, and the answer of the action. -/
def withState {α : Type} (session : Session) (result : Option (State × α)) :
    Option (Session × α) :=
  result.map fun (state, answer) => ({ session with state }, answer)

/-- A session as what its callers share. -/
abbrev arena (host : Host) : Arena interface where
  State := Session
  perform reaction action session := session.withState (session.state.perform reaction action)
  giveUp reaction action session := session.withState (session.state.giveUp reaction action)
  Happening := Happening
  happen := happen host

end Session

end DebugBridge
