import DebugBridge.Text.Shapeless

/-!
# Quoted texts in messages

`quoted` puts a text between quotes for a message: quotes, backslashes and the common controls are
escaped by a letter, and characters without a shape of their own by their code in braces.
-/

namespace DebugBridge.Text

/-- Whether a character has a shape of its own. -/
def hasShape (c : Char) : Bool :=
  !Shapeless.ranges.any fun range => range.1 ≤ c.toNat && c.toNat ≤ range.2

/-- The digits of a number to base 16, in lower case. -/
def hexDigits (n : Nat) : List Char :=
  Nat.toDigits 16 n

/-- A character inside a quoted text. -/
def quotedChar (c : Char) : List Char :=
  match c with
  | '"' => ['\\', '"']
  | '\\' => ['\\', '\\']
  | '\n' => ['\\', 'n']
  | '\r' => ['\\', 'r']
  | '\t' => ['\\', 't']
  | '\x00' => ['\\', '0']
  | c =>
      if hasShape c then [c]
      else ['\\', 'u', '\x7b'] ++ hexDigits c.toNat ++ ['\x7d']

/-- A text between quotes. -/
def quoted (text : String) : String :=
  String.ofList ('"' :: (text.toList.flatMap quotedChar ++ ['"']))

end DebugBridge.Text
