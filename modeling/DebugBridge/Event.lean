import DebugBridge.Value.Basic
import DebugBridge.Frame
import DebugBridge.StopReason

/-!
# Events

An `AsyncRecord` is a record that the debugger prints of its own accord.  An `Event` is what the
subscribers of a session receive: such records, the three streams of text, the raw lines, the
commands as they were written, and the end of the session.
-/

namespace DebugBridge

/-- A record that is no answer to a command: a change of execution or a notice. -/
structure AsyncRecord where
  name : String
  payload : Value
deriving DecidableEq, Repr

namespace AsyncRecord

/-- Whether the record says that the target stopped. -/
def isStop (record : AsyncRecord) : Bool :=
  record.name == "stopped"

/-- Whether the record says that the target runs. -/
def isRunning (record : AsyncRecord) : Bool :=
  record.name == "running"

/-- Why the target stopped. -/
def reason? (record : AsyncRecord) : Option StopReason :=
  (record.payload.text? "reason").map StopReason.ofKeyword

/-- The frame in which the target stopped. -/
def frame? (record : AsyncRecord) : Option Frame :=
  (record.payload.get? "frame").bind Frame.ofValue?

end AsyncRecord

/-- What subscribers of a session receive. -/
inductive Event
  | exec (record : AsyncRecord)
  | notify (record : AsyncRecord)
  /-- the console stream -/
  | console (text : String)
  /-- the log stream, and the messages of error records -/
  | log (text : String)
  /-- output of the debugged program -/
  | target (text : String)
  /-- a raw line from the debugger, or a notice of the session itself -/
  | output (line : String)
  /-- a command as it was written -/
  | commandSent (line : String)
  /-- the session ended -/
  | exited
deriving DecidableEq, Repr

end DebugBridge
