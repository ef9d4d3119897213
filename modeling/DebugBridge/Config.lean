import DebugBridge.Text.Numeral
import DebugBridge.Text.Path

/-!
# Configuration of a session

Which debugger is started on which program, and the time limits of its commands.  A `Target` says
what is debugged: the program on this machine, or a stub behind a `Link`.  Both decide which
commands warm the debugger up (`Config.warmUp`).
-/

namespace DebugBridge

/-- How a debugging stub is reached. -/
inductive Link
  | tcp (host : String) (port : Nat)
  | serial (port : String) (baudRate : Option Nat)
deriving DecidableEq, Repr

/-- The address of a stub, as the debugger takes it. -/
def Link.address : Link → String
  | tcp host port => host ++ ":" ++ toString port
  | serial port _ => port

/-- What is debugged. -/
inductive Target
  /-- the program itself, on this machine -/
  | local
  /-- a stub; `extended` keeps the connection when the program ends -/
  | remote (link : Link) (extended : Bool)
deriving DecidableEq, Repr

/-- The commands that connect the debugger to its target. -/
def Target.setupCommands : Target → List String
  | .local => []
  | remote link extended =>
      let baud := match link with
        | .serial _ (some rate) => ["-gdb-set serial baud " ++ toString rate]
        | _ => []
      let mode := if extended then "extended-remote" else "remote"
      baud ++ ["-target-select " ++ mode ++ " " ++ link.address]

/-- The configuration of a session; times are in milliseconds. -/
structure Config where
  /-- the debugger to start -/
  debugger : String
  /-- the program to debug; the debugger runs in its directory -/
  elfFile : String
  /-- arguments of the debugger in front of the program -/
  arguments : List String := ["--interpreter=mi"]
  /-- whether commands are possible while the target executes -/
  asyncMode : Bool := false
  architecture : Option String := none
  /-- how long a command waits for its result -/
  commandLimit : Nat := 10000
  /-- how long a start waits for the first line of output -/
  readyLimit : Nat := 5000
  /-- how long a stop waits for its turn, and for the debugger to quit -/
  quitLimit : Nat := 500
  /-- how many interrupts a pause sends at most -/
  pauseAttempts : Nat := 3
  /-- how long a pause waits after an interrupt -/
  pauseInterval : Nat := 500
deriving DecidableEq, Repr

namespace Config

/-- The configuration that the environment variables ask for. -/
def ofEnvironment (lookup : String → Option String) (elfFile : String) : Config :=
  { debugger := (lookup "GDB_PATH").getD "gdb"
    elfFile
    commandLimit := ((lookup "GDB_TIMEOUT_MS").bind Text.readWord64).getD 10000
    asyncMode :=
      ((lookup "GDB_ASYNC").map fun v => v == "1" || v == "true" || v == "on").getD false }

def workingDirectory? (config : Config) : Option String :=
  Text.Path.parent? config.elfFile

/-- The name of the program in its directory. -/
def elfName? (config : Config) : Option String :=
  Text.Path.fileName? config.elfFile

/-- The arguments with which the debugger is started. -/
def launchArguments (config : Config) : List String :=
  config.arguments ++ config.elfName?.toList

/-- The commands that a start runs, in order. -/
def warmUp (config : Config) (target : Target) : List String :=
  ["-enable-pretty-printing"] ++
    (if config.asyncMode then ["-gdb-set mi-async on"] else []) ++
    ["-gdb-set pagination off"] ++
    (config.architecture.map fun name => "-gdb-set architecture " ++ name).toList ++
    target.setupCommands

end Config

end DebugBridge
