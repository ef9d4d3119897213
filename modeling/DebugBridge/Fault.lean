import DebugBridge.ParseFailure
import DebugBridge.Status
import DebugBridge.Text.Elapsed

/-!
# Faults

Why a session could not do what it was asked to.
-/

namespace DebugBridge

/-- Why a session could not do what it was asked to. -/
inductive Fault
  /-- the directory to run the debugger in is none -/
  | workingDirectory (path : String)
  /-- the debugger could not be started -/
  | launch (debugger reason : String)
  /-- the debugger printed nothing within so many nanoseconds -/
  | readyTimeout (nanos : Nat)
  /-- a command of the warm-up was not accepted -/
  | warmUp (command : String) (status : Status)
  /-- a session starts only once -/
  | alreadyStarted
  /-- the session ended first -/
  | exited
  /-- the target cannot be interrupted here -/
  | interruptUnsupported
  | parse (failure : ParseFailure)
  /-- the operating system refused, in its words -/
  | io (reason : String)
deriving DecidableEq, Repr

def Fault.message : Fault → String
  | workingDirectory path => "working directory does not exist: " ++ path
  | launch debugger reason => "failed to launch " ++ debugger ++ ": " ++ reason
  | readyTimeout nanos => "GDB produced no output within " ++ Text.Elapsed.render nanos
  | warmUp command status =>
      "warm-up command `" ++ command ++ "` failed with status " ++ status.keyword
  | alreadyStarted => "GDB session already started"
  | exited => "GDB session has exited"
  | interruptUnsupported => "interrupting the target is not supported on this platform"
  | parse failure => "parse error: " ++ failure.render
  | io reason => reason

end DebugBridge
