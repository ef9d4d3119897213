import DebugBridge.Record
import DebugBridge.Session.Command

/-!
# Reading the output of the debugger

Each line is published as it came, then classified and taken into account.  A line that breaks the
grammar has no further effect.
-/

namespace DebugBridge.Session

/-- An ASCII letter in lower case; other characters stay as they are. -/
def lowerLetter (c : Char) : Char :=
  if 'A' ≤ c && c ≤ 'Z' then Char.ofNat (c.toNat + 32) else c

/-- Whether a text of the console says that the debugger quits, in whatever case. -/
def announcesQuit (text : String) : Bool :=
  (text.toList.take 4).map lowerLetter == "quit".toList

/-- Hands a result to the command in flight. -/
def handleResult (outcome : Outcome) : Activity Unit := do
  perform (.noteResult outcome)
  perform (.deliver outcome)

def handleRecord : Record → Activity Unit
  | .result outcome => do
      if outcome.status = .error then
        publish (.log (outcome.message?.getD outcome.raw))
      handleResult outcome
  | .exec record => do
      perform (.applyExec record)
      publish (.exec record)
  | .notify record => publish (.notify record)
  | .console text => do
      if announcesQuit text then
        perform (.setRunning false)
      publish (.console text)
  | .log text => publish (.log text)
  | .target text => publish (.target text)

def handleLine (line : String) : Activity Unit := do
  perform .markHeard
  publish (.output line)
  match Record.read line with
  | .ok (some record) => handleRecord record
  | .ok none | .error _ => return

/-- Ends the session if it still goes on, and tells the subscribers. -/
def finish : Activity Unit := do
  if ← perform .markExited then
    publish .exited

/-- Takes the end of a stream into account. -/
def endOfStream : Channel → Activity Unit
  | .output => finish
  | .error => return

def handleReading (channel : Channel) : Stream.Reading → Activity Unit
  | .line text => handleLine text
  | .over => endOfStream channel

end DebugBridge.Session
