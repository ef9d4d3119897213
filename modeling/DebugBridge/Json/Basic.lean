import DebugBridge.Text.Double

/-!
# JSON values

A JSON value as data.  The entries of an object stay as they come, in order and with repeated
names; `Json.normal` is the form in which each name stands once, with its last value, and names
are sorted by code point.  `Json.render` writes a value without spaces.
-/

namespace DebugBridge

/-- A JSON number: an integer of 64 bits, or a double by its bits. -/
inductive Json.Number
  /-- a natural number below `2 ^ 64` -/
  | nat (n : Nat)
  /-- the negative of a positive number of at most `2 ^ 63` -/
  | neg (n : Nat)
  | double (bits : UInt64)
deriving DecidableEq, Repr, Inhabited

def Json.Number.render : Json.Number → String
  | nat n => toString n
  | neg n => "-" ++ toString n
  | double bits => Text.Double.shortest bits

inductive Json
  | null
  | bool (b : Bool)
  | number (n : Json.Number)
  | string (s : String)
  | array (items : List Json)
  | object (entries : List (String × Json))
deriving Repr, Inhabited

namespace Json

def nat (n : Nat) : Json :=
  number (.nat n)

def int (n : Int) : Json :=
  if n < 0 then number (.neg n.natAbs) else nat n.toNat

/-- An optional value; absence is `null`. -/
def option {α : Type} (encode : α → Json) (value : Option α) : Json :=
  (value.map encode).getD null

/-! ## Text -/

/-- A hexadecimal digit in lower case. -/
def hexDigit (n : Nat) : Char :=
  if n < 10 then Char.ofNat ('0'.toNat + n) else Char.ofNat ('a'.toNat + (n - 10))

/-- A character inside a quoted text. -/
def escapeChar (c : Char) : List Char :=
  match c with
  | '"' => ['\\', '"']
  | '\\' => ['\\', '\\']
  | '\x08' => ['\\', 'b']
  | '\x0c' => ['\\', 'f']
  | '\n' => ['\\', 'n']
  | '\r' => ['\\', 'r']
  | '\t' => ['\\', 't']
  | c =>
      if c.toNat < 0x20 then
        ['\\', 'u', '0', '0', hexDigit (c.toNat / 16), hexDigit (c.toNat % 16)]
      else [c]

/-- A text in quotes. -/
def quote (text : String) : List Char :=
  '"' :: (text.toList.flatMap escapeChar ++ ['"'])

mutual

def write : Json → List Char
  | null => ['n', 'u', 'l', 'l']
  | bool true => ['t', 'r', 'u', 'e']
  | bool false => ['f', 'a', 'l', 's', 'e']
  | number n => n.render.toList
  | string s => quote s
  | array items => '[' :: (writeItems items ++ [']'])
  | object entries => '\x7b' :: (writeEntries entries ++ ['\x7d'])

def writeItems : List Json → List Char
  | [] => []
  | [item] => write item
  | item :: rest => write item ++ ',' :: writeItems rest

def writeEntries : List (String × Json) → List Char
  | [] => []
  | [(name, value)] => quote name ++ ':' :: write value
  | (name, value) :: rest => quote name ++ ':' :: (write value ++ ',' :: writeEntries rest)

end

/-- The text of a value, without spaces. -/
def render (json : Json) : String :=
  String.ofList json.write

/-! ## Normal form -/

/-- Stores a value under a name in entries sorted by name; a value that is there is replaced. -/
def insertSorted (name : String) (value : Json) :
    List (String × Json) → List (String × Json)
  | [] => [(name, value)]
  | (stored, old) :: rest =>
      if stored = name then (name, value) :: rest
      else if name < stored then (name, value) :: (stored, old) :: rest
      else (stored, old) :: insertSorted name value rest

mutual

/-- The value with the entries of every object sorted by name, each name once with its last
value. -/
def normal : Json → Json
  | array items => array (normalItems items)
  | object entries => object (normalEntries [] entries)
  | scalar => scalar

def normalItems : List Json → List Json
  | [] => []
  | item :: rest => normal item :: normalItems rest

/-- Sorted entries together with the normal forms of further ones. -/
def normalEntries (sorted : List (String × Json)) :
    List (String × Json) → List (String × Json)
  | [] => sorted
  | (name, value) :: rest => normalEntries (insertSorted name (normal value) sorted) rest

end

/-- The value under a name of an object. -/
def find? (name : String) : List (String × Json) → Option Json
  | [] => none
  | (stored, value) :: rest => if stored = name then some value else find? name rest

end Json

end DebugBridge
