import DebugBridge.Status
import DebugBridge.Frame
import DebugBridge.Breakpoint

/-!
# Outcomes of commands

What a caller gets for a command: the result record that the debugger printed, or an outcome made
up locally when there is none (`Outcome.ofMessage`).  The views read the fields that commands are
known to answer with.
-/

namespace DebugBridge

/-- How a command ended, with the text and the fields of its result record. -/
structure Outcome where
  status : Status
  /-- the record as it was printed, or the message of a local outcome -/
  raw : String
  payload : Option Value
deriving DecidableEq, Repr, Inhabited

namespace Outcome

/-- An outcome that no record stands behind; the message is a field `msg`, as in an error
record. -/
def ofMessage (status : Status) (message : String) : Outcome :=
  ⟨status, message, some (.tuple [("msg", .text message)])⟩

/-- No result record arrived within the limit. -/
def timedOut : Outcome :=
  ofMessage .timeout "GDB timed out"

/-- The session ended before a result arrived. -/
def sessionExited : Outcome :=
  ofMessage .exit "GDB session has exited"

/-- The command was refused because the target is executing. -/
def targetRunning : Outcome :=
  ofMessage .running "Not possible while the target is running"

/-- The command was given before the session had a debugger. -/
def notStarted : Outcome :=
  ofMessage .error "GDB session is not started"

/-- The command could not be written to the debugger. -/
def writeFailed (reason : String) : Outcome :=
  ofMessage .error ("Failed to send command to GDB: " ++ reason)

/-- Whether the debugger took the command. -/
def isSuccess (outcome : Outcome) : Bool :=
  outcome.status.isSuccess

def field? (outcome : Outcome) (name : String) : Option Value :=
  outcome.payload.bind (·.get? name)

def message? (outcome : Outcome) : Option String :=
  (outcome.field? "msg").bind Value.asText?

/-- The value of an expression. -/
def value? (outcome : Outcome) : Option String :=
  (outcome.field? "value").bind Value.asText?

/-- The breakpoint that was set. -/
def breakpoint? (outcome : Outcome) : Option BreakpointReport :=
  (outcome.field? "bkpt").bind BreakpointReport.ofValue?

/-- The items of a field that is a list. -/
def items (outcome : Outcome) (name : String) : List Value :=
  ((outcome.field? name).bind Value.asList?).getD []

/-- The frames of a stack listing; each item is a frame or a tuple with an entry `frame`. -/
def frames (outcome : Outcome) : List Frame :=
  (outcome.items "stack").filterMap fun item => Frame.ofValue? ((item.get? "frame").getD item)

/-- The variables of a listing of locals. -/
def locals (outcome : Outcome) : List Variable :=
  (outcome.items "locals").filterMap Variable.ofValue?

end Outcome

end DebugBridge
