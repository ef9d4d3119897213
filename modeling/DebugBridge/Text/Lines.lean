/-!
# Lines of a stream

A stream is read line by line.  A line goes up to the next line feed, and one carriage return in
front of that belongs to the line's end.  `linesOf` cuts a text that is written to a stream, with a
line feed behind it, into the lines that are read from it.
-/

namespace DebugBridge.Text

/-- The text without one carriage return at its end, if it has one there. -/
def withoutReturn (cs : List Char) : List Char :=
  if cs.getLast? = some '\r' then cs.dropLast else cs

/-- The lines of a text that is written to a stream as a line. -/
def linesOf (text : String) : List String :=
  (text.splitOn "\n").map fun line => String.ofList (withoutReturn line.toList)

end DebugBridge.Text
