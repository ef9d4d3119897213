import DebugBridge.Session.Operation

/-!
# Launching a debugger

What the operating system makes of the attempt to start a debugger: it runs in the directory of the
program to debug, which has to be there, and its own program has to be executable.  A program whose
name holds a slash is looked up from that directory.
-/

namespace DebugBridge.Session

/-- Why a program cannot be started. -/
inductive StartError
  /-- nothing is there -/
  | missing
  /-- what is there cannot be executed -/
  | denied
  /-- the path goes on behind something that is no directory -/
  | notDirectory
  /-- a name in the path, or the path, is too long -/
  | nameTooLong
  /-- the name or an argument holds a character that ends a text for the operating system -/
  | nulByte
deriving DecidableEq, Repr

/-- The words of the operating system for an error. -/
def StartError.message : StartError → String
  | missing => "No such file or directory (os error 2)"
  | denied => "Permission denied (os error 13)"
  | notDirectory => "Not a directory (os error 20)"
  | nameTooLong => "File name too long (os error 36)"
  | nulByte => "nul byte found in provided data"

/-- What is known about the machine that a session runs on. -/
structure Machine where
  isDirectory : String → Bool
  /-- whether a path leads to a regular file -/
  isFile : String → Bool
  /-- why a program cannot be started in a directory, if it cannot; without a directory it is
  started where the bridge itself runs -/
  startError? : (directory : Option String) → (program : String) → Option StartError

/-- The directory to start a debugger in, if the program to debug lies in one. -/
def Plan.directory? (plan : Plan) : Option String :=
  plan.config.workingDirectory?.filter (!·.isEmpty)

/-- Whether a text can be handed to the operating system. -/
def isPassable (text : String) : Bool :=
  text.toList.all (· != '\x00')

/-- Why a debugger cannot be started in its directory, if it cannot. -/
def Plan.startError? (plan : Plan) (machine : Machine) : Option StartError :=
  if (plan.config.debugger :: plan.config.launchArguments).all isPassable then
    machine.startError? plan.directory? plan.config.debugger
  else some .nulByte

/-- Why a debugger cannot be launched, if it cannot. -/
def Plan.launchFault? (plan : Plan) (machine : Machine) : Option Fault :=
  match plan.directory?.filter (!machine.isDirectory ·) with
  | some directory => some (.workingDirectory directory)
  | none => (plan.startError? machine).map fun error =>
      .launch plan.config.debugger error.message

end DebugBridge.Session
