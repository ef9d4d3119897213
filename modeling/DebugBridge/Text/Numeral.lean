/-!
# Unsigned decimal numerals

The numerals in which line numbers, frame levels and time limits are written: an optional plus
sign and at least one ASCII digit, with nothing around them.  `readBelow` reads one whose value
lies below a bound; leading zeros do not matter.
-/

namespace DebugBridge.Text

/-- The value of a run of decimal digits, most significant first. -/
def ofDigits (digits : List Char) : Nat :=
  digits.foldl (fun value digit => 10 * value + (digit.toNat - '0'.toNat)) 0

/-- A numeral without its optional plus sign. -/
def dropPlus : List Char → List Char
  | '+' :: rest => rest
  | digits => digits

/-- The value of a numeral, if the text is one and the value lies below the bound. -/
def readBelow (bound : Nat) (text : String) : Option Nat :=
  let digits := dropPlus text.toList
  if digits.isEmpty || !digits.all Char.isDigit then none
  else if ofDigits digits < bound then some (ofDigits digits) else none

def readWord32 (text : String) : Option Nat :=
  readBelow (Nat.pow 2 32) text

def readWord64 (text : String) : Option Nat :=
  readBelow (Nat.pow 2 64) text

end DebugBridge.Text
