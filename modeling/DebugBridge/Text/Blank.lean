/-!
# White space and trimming

The characters with the Unicode property `White_Space`, and the two ways of cutting a text at its
ends by a class of characters.  `dropTrailing` is `List.dropWhile` seen from the other end.
-/

namespace DebugBridge.Text

/-- The characters with the Unicode property `White_Space`: 25 code points in eleven ranges. -/
def isBlank (c : Char) : Bool :=
  let n := c.toNat
  (0x9 ≤ n && n ≤ 0xD) || n == 0x20 || n == 0x85 || n == 0xA0 || n == 0x1680 ||
    (0x2000 ≤ n && n ≤ 0x200A) || n == 0x2028 || n == 0x2029 || n == 0x202F ||
    n == 0x205F || n == 0x3000

/-- A carriage return or a line feed. -/
def isLineEnd (c : Char) : Bool :=
  c == '\r' || c == '\n'

/-- The text without its longest tail of characters of the class. -/
def dropTrailing (inClass : Char → Bool) (cs : List Char) : List Char :=
  (cs.reverse.dropWhile inClass).reverse

/-- Whether the text holds nothing but white space. -/
def isAllBlank (text : String) : Bool :=
  text.toList.all isBlank

end DebugBridge.Text
