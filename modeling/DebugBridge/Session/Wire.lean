/-!
# The wire to the debugger

Both directions of the connection, as the session sees them: what the debugger has printed and
nobody has read yet, whether its process is gone, and what the session has asked of it.
-/

namespace DebugBridge.Session

/-- The two streams a debugger prints to.  Only the end of `output` means that it is gone. -/
inductive Channel
  | output
  | error
deriving DecidableEq, Repr

/-- A piece of a stream. -/
inductive Chunk
  | line (text : String)
  /-- reading failed; nothing behind this is read -/
  | failure (reason : String)
deriving DecidableEq, Repr

structure Stream where
  /-- what was printed and not yet read -/
  pending : List Chunk := []
  /-- whether nothing more will be printed -/
  closed : Bool := false
  /-- whether the reader has come to the end -/
  finished : Bool := false
deriving DecidableEq, Repr, Inhabited

namespace Stream

/-- Prints a piece; behind the end nothing arrives any more. -/
def print (chunk : Chunk) (stream : Stream) : Stream :=
  if stream.closed then stream else { stream with pending := stream.pending ++ [chunk] }

def close (stream : Stream) : Stream :=
  { stream with closed := true }

/-- What reading a stream yields. -/
inductive Reading
  | line (text : String)
  /-- the end, or a failure, which ends the stream as well -/
  | over
deriving DecidableEq, Repr

/-- Reads on, unless there is nothing to read yet or the end was read before. -/
def read? (stream : Stream) : Option (Stream × Reading) :=
  if stream.finished then none
  else match stream.pending with
    | .line text :: rest => some ({ stream with pending := rest }, .line text)
    | .failure _ :: _ => some ({ stream with finished := true }, .over)
    | [] => if stream.closed then some ({ stream with finished := true }, .over) else none

end Stream

/-- A connection to a debugger. -/
structure Wire where
  /-- whether the session is connected to it -/
  connected : Bool := false
  output : Stream := {}
  error : Stream := {}
  /-- whether the process was reported gone -/
  gone : Bool := false
  /-- whether the session waits for that report -/
  watched : Bool := false
  /-- the lines that were written, first to last -/
  written : List String := []
  interrupts : Nat := 0
  inputsClosed : Nat := 0
  terminations : Nat := 0
deriving DecidableEq, Repr, Inhabited

namespace Wire

def stream (wire : Wire) : Channel → Stream
  | .output => wire.output
  | .error => wire.error

def setStream (channel : Channel) (stream : Stream) (wire : Wire) : Wire :=
  match channel with
  | .output => { wire with output := stream }
  | .error => { wire with error := stream }

/-- Reports the process gone.  The answer says whether the session has to be told, which happens
once. -/
def reportGone (wire : Wire) : Wire × Bool :=
  if wire.gone then (wire, false) else ({ wire with gone := true, watched := false }, wire.watched)

/-- Asks to be told when the process is gone.  The answer says that it is gone already. -/
def watch (wire : Wire) : Wire × Bool :=
  if wire.gone then (wire, true) else ({ wire with watched := true }, false)

end Wire

end DebugBridge.Session
