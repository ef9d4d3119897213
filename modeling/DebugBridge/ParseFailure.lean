import DebugBridge.Text.Utf8
import DebugBridge.Value.Reader

/-!
# Parse failures

Where and why a line breaks the grammar of the interface.  The text of a failure shows the line
with `[!]` at the position where reading stopped.
-/

namespace DebugBridge

/-- A violation of the grammar in one line. -/
structure ParseFailure where
  message : String
  /-- the byte offset in the line at which reading stopped -/
  position : Nat
  line : String
deriving DecidableEq, Repr

namespace ParseFailure

/-- A failure in a line; a position behind its end counts as its end. -/
def ofLine (message : String) (line : List Char) (position : Nat) : ParseFailure :=
  ⟨message, min position (Text.utf8Length line), String.ofList line⟩

/-- The failure to read a text that begins at a byte offset of a line. -/
def ofStop (stop : Value.Stop) (read : List Char) (line : List Char) (start : Nat) :
    ParseFailure :=
  ofLine stop.cause.message line (stop.offset read + start)

/-- The line with the position marked; the mark stands at the end when the position is not a
character boundary. -/
def marked (failure : ParseFailure) : String :=
  match Text.splitAtByte failure.position failure.line.toList with
  | some (head, tail) => String.ofList head ++ "[!]" ++ String.ofList tail
  | none => failure.line ++ "[!]"

def render (failure : ParseFailure) : String :=
  failure.message ++ " at " ++ toString failure.position ++ ": " ++ failure.marked

end ParseFailure

end DebugBridge
