/-!
# Offsets in UTF-8

Positions in a line are counted in bytes of its UTF-8 encoding.  `splitAtByte` cuts a text at such
an offset and answers `none` for an offset that falls inside a character or behind the end.
-/

namespace DebugBridge.Text

/-- The number of bytes of the UTF-8 encoding of a text. -/
def utf8Length (cs : List Char) : Nat :=
  (cs.map Char.utf8Size).foldr (· + ·) 0

/-- The two parts of a text around a byte offset, if the offset is a character boundary. -/
def splitAtByte : Nat → List Char → Option (List Char × List Char)
  | 0, cs => some ([], cs)
  | _ + 1, [] => none
  | offset, c :: rest =>
      if offset < c.utf8Size then none
      else (splitAtByte (offset - c.utf8Size) rest).map fun (before, after) => (c :: before, after)

end DebugBridge.Text
