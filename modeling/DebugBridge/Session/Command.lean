import DebugBridge.Config
import DebugBridge.Session.Action

/-!
# Commands

How a caller has one command carried out.  The gate admits one command at a time.  An admitted
command is refused when the session has ended or, where commands and execution exclude each other,
when the target executes; otherwise it is written, and its caller waits for the result.

A target that executes is stopped by a command where both are possible at once, else by an
interrupt (`pause`).
-/

namespace DebugBridge.Session

/-- The line of a command: its parts that are not empty, with single spaces between them. -/
def commandLine (command : String) (arguments : List String) : String :=
  " ".intercalate ((command :: arguments).filter (!·.isEmpty))

abbrev perform (action : Action) : Activity action.Answer :=
  Program.perform (I := interface) action

def publish (event : Event) : Activity Unit :=
  perform (.publish event)

/-- What a command gets that could not be written. -/
def writeFault (fault : Fault) (claimed : Bool) : Activity Outcome := do
  perform .disarm
  if claimed then
    perform (.setRunning false)
  if ← perform .isExited then
    return .sessionExited
  return .writeFailed fault.message

/-- Writes a line and waits for its result. -/
def exchange (line : String) (limit : Nat) (claimed : Bool) : Activity Outcome := do
  let ticket ← perform .arm
  match ← perform (.write line) with
  | some fault => writeFault fault claimed
  | none =>
      publish (.commandSent line)
      perform (.awaitResult ticket limit claimed)

/-- Carries out a command that holds the gate. -/
def admitted (config : Config) (line : String) (limit : Nat) : Activity Outcome := do
  if ← perform .isExited then
    return .sessionExited
  if config.asyncMode then
    exchange line limit false
  else if ← perform .claimTarget then
    exchange line limit true
  else
    publish (.output (Outcome.targetRunning.raw ++ ": " ++ line))
    return .targetRunning

/-- Carries out a command as soon as the gate is free. -/
def runCommand (config : Config) (line : String) (limit : Nat) : Activity Outcome := do
  let _ ← perform (.acquire none)
  let outcome ← admitted config line limit
  perform .release
  return outcome

/-- Carries out a command unless the gate stays held up to the limit. -/
def tryRunCommand (config : Config) (line : String) (limit : Nat) : Activity (Option Outcome) := do
  if ← perform (.acquire (some limit)) then
    let outcome ← admitted config line limit
    perform .release
    return some outcome
  return none

/-- Carries out a command within the limit of the configuration. -/
def execute (config : Config) (command : String) (arguments : List String := []) :
    Activity Outcome :=
  runCommand config (commandLine command arguments) config.commandLimit

/-! ## Stopping the target -/

/-- What a pause answers that had nothing to stop. -/
def notRunning : Outcome :=
  .ofMessage .done "Target is not running"

/-- What a pause answers that stopped the target. -/
def paused : Outcome :=
  .ofMessage .done "Target paused"

/-- What a pause answers after its last interrupt. -/
def pauseFailed : Outcome :=
  .ofMessage .error "Failed to pause the target"

/-- Waits for the target to stop after an interrupt, with so many attempts left. -/
def settle (interval : Nat) : (attempts : Nat) → Activity Outcome
  | 0 => do
      return match ← perform (.settle interval false) with
        | .notRunning => paused
        | .exited => .sessionExited
        | .refused fault => .ofMessage .error fault.message
        | .sent | .exhausted => pauseFailed
  | attempts + 1 => do
      match ← perform (.settle interval true) with
      | .notRunning => return paused
      | .exited => return .sessionExited
      | .refused fault => return .ofMessage .error fault.message
      | .exhausted => return pauseFailed
      | .sent => settle interval attempts

/-- Interrupts the target until it stops. -/
def interrupt (config : Config) : Activity Outcome := do
  if ← perform .isExited then
    return .sessionExited
  match ← perform (.interrupt (config.pauseAttempts != 0)) with
  | .notRunning => return notRunning
  | .exited => return .sessionExited
  | .refused fault => return .ofMessage .error fault.message
  | .exhausted => return pauseFailed
  | .sent => settle config.pauseInterval (config.pauseAttempts - 1)

def pause (config : Config) : Activity Outcome :=
  if config.asyncMode then execute config "-exec-interrupt" else interrupt config

end DebugBridge.Session
