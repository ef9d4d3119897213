/-!
# Command status

The class of outcome of a command: the five classes of result records, and the one that arises
when no result record came in time.
-/

namespace DebugBridge

/-- How a command ended. -/
inductive Status
  | done
  | running
  | connected
  | error
  | exit
  /-- no result record arrived within the limit -/
  | timeout
deriving DecidableEq, Repr, Inhabited

namespace Status

def keyword : Status → String
  | done => "done"
  | running => "running"
  | connected => "connected"
  | error => "error"
  | exit => "exit"
  | timeout => "timeout"

/-- The status that a result record announces by its class. -/
def ofClass? : String → Option Status
  | "done" => some done
  | "running" => some running
  | "connected" => some connected
  | "error" => some error
  | "exit" => some exit
  | _ => none

/-- Whether the debugger took the command. -/
def isSuccess : Status → Bool
  | done | running | connected => true
  | error | exit | timeout => false

end Status

end DebugBridge
