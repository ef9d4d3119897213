import DebugBridge.Event
import DebugBridge.Outcome

/-!
# The shared core of a session

Callers, readers and the session itself share three things: the gate that admits one command at a
time, the slot through which the command in flight gets its result, and what is known about the
execution of the target.

A caller that waits for the target to stop looks again at every signal, and at the end of its time.
A command that gives up ends its claim to the target without a signal (`Execution.silent`), so that
such a caller learns of it later.

Results carry no mark of the command they belong to, so the next result record belongs to the
command in flight.  Each command arms the slot with a ticket of its own; a result that arrives
while nothing is armed answers a command that has given up, and is dropped.
-/

namespace DebugBridge.Session

/-- Where a session is in its life. -/
inductive Phase
  | idle
  | starting
  | ready
  | running
  | stopped
  | exited
deriving DecidableEq, Repr, Inhabited

def Phase.keyword : Phase → String
  | idle => "idle"
  | starting => "starting"
  | ready => "ready"
  | running => "running"
  | stopped => "stopped"
  | exited => "exited"

/-- The place where the command in flight waits for its result. -/
structure Slot where
  /-- the number of tickets given out -/
  issued : Nat := 0
  /-- the ticket of the command in flight -/
  armed : Option Nat := none
  /-- the result of the command in flight, once it is there -/
  result : Option Outcome := none
  exited : Bool := false
deriving DecidableEq, Repr, Inhabited

/-- What is known about the debugger and its target. -/
structure Execution where
  running : Bool := false
  /-- whether the debugger has printed anything -/
  heard : Bool := false
  phase : Phase := .idle
  /-- whether the target last ceased to execute without a signal to the callers that wait for it -/
  silent : Bool := false
deriving DecidableEq, Repr, Inhabited

/-- What the parties of a session share. -/
structure Core where
  gateHeld : Bool := false
  slot : Slot := {}
  execution : Execution := {}
deriving DecidableEq, Repr, Inhabited

namespace Core

def isExited (core : Core) : Bool :=
  core.slot.exited

def isRunning (core : Core) : Bool :=
  core.execution.running

/-- Whether the target does not execute, to the knowledge of the callers that wait for that. -/
def isAtRest (core : Core) : Bool :=
  !core.execution.running && !core.execution.silent

def phase (core : Core) : Phase :=
  core.execution.phase

/-! ## Life of the session -/

/-- Begins the start of an idle session. -/
def beginStart (core : Core) : Core × Bool :=
  if core.phase = .idle then
    ({ core with execution := { core.execution with phase := .starting } }, true)
  else (core, false)

/-- Ends the start.  A phase that an execution record has set in the meantime is kept, as when the
target stopped on being connected. -/
def finishStart (core : Core) : Core × Bool :=
  if core.phase = .starting then
    ({ core with execution := { core.execution with phase := .ready } }, true)
  else (core, false)

/-- Ends the session; the answer says whether it was still going on. -/
def markExited (core : Core) : Core × Bool :=
  if core.slot.exited then (core, false)
  else
    ({ core with
        slot := { core.slot with exited := true }
        execution :=
          { core.execution with running := false, phase := .exited, silent := false } }, true)

/-! ## Execution of the target -/

/-- Notes that the debugger printed something; the first time, this is a signal to all callers. -/
def markHeard (core : Core) : Core :=
  let silent := core.execution.heard && core.execution.silent
  { core with execution := { core.execution with heard := true, silent } }

/-- Notes whether the target executes, with a signal to the callers that wait for it to stop. -/
def setRunning (running : Bool) (core : Core) : Core :=
  { core with execution := { core.execution with running, silent := false } }

/-- Takes an execution record into account: the target runs, or else it has stopped. -/
def applyExec (record : AsyncRecord) (core : Core) : Core :=
  let running := record.isRunning
  let phase :=
    if core.phase = .exited then Phase.exited else if running then .running else .stopped
  { core with execution := { core.execution with running, phase, silent := false } }

/-- Takes the class of a result into account: the target executes exactly after `running`.  This
holds for late results too. -/
def noteResult (outcome : Outcome) (core : Core) : Core :=
  core.setRunning (outcome.status == .running)

/-! ## The slot -/

/-- Arms the slot for a new command and answers its ticket. -/
def arm (core : Core) : Core × Nat :=
  let ticket := core.slot.issued + 1
  ({ core with slot := { core.slot with issued := ticket, armed := some ticket, result := none } },
    ticket)

/-- Leaves the slot to nobody. -/
def disarm (core : Core) : Core :=
  { core with slot := { core.slot with armed := none } }

/-- Hands a result to the command in flight, if there is one. -/
def deliver (outcome : Outcome) (core : Core) : Core :=
  if core.slot.armed.isNone then core
  else { core with slot := { core.slot with result := some outcome } }

/-- The result of the command with this ticket, when it need not wait for one: the record that was
delivered to it, or the end of the session. -/
def collect? (ticket : Nat) (core : Core) : Option (Core × Outcome) :=
  match (if core.slot.armed = some ticket then core.slot.result else none) with
  | some outcome =>
      some ({ core with slot := { core.slot with armed := none, result := none } }, outcome)
  | none => if core.slot.exited then some (core.disarm, .sessionExited) else none

/-- Gives a command up.  Where a command claims the target, that claim ends too, and no caller that
waits for the target to stop gets a signal. -/
def abandon (claimed : Bool) (core : Core) : Core :=
  if claimed then
    { core.disarm with execution := { core.execution with running := false, silent := true } }
  else core.disarm

/-! ## The gate and the target -/

def acquire? (core : Core) : Option Core :=
  if core.gateHeld then none else some { core with gateHeld := true }

def release (core : Core) : Core :=
  { core with gateHeld := false }

/-- Claims the target for a command, unless it executes already. -/
def claimTarget (core : Core) : Core × Bool :=
  if core.isRunning then (core, false) else (core.setRunning true, true)

end Core

end DebugBridge.Session
