import DebugBridge.Json.Basic
import DebugBridge.Text.Numeral

/-!
# Reading JSON text

Reading has two stages.  `Tree.read?` checks the grammar and answers the tree that a text spells;
`Tree.value?` gives the tree its value, which fails for a text with an unpaired surrogate, a
number beyond the doubles, or arrays and objects nested deeper than `depthLimit`.

A reader that is interested only in some fields of a record drops the others between the stages
(`Reading.record`), so that these have to be well-formed but need no value.
-/

namespace DebugBridge.Json

/-- A number as it is spelled. -/
structure Numeral where
  negative : Bool
  whole : List Char
  /-- the digits behind the point, if there is one -/
  fraction : Option (List Char)
  /-- the power of ten, if there is one -/
  exponent : Option Int
deriving Repr

/-- The tree that a JSON text spells. -/
inductive Tree
  | null
  | bool (b : Bool)
  | number (n : Numeral)
  /-- a text, or `none` if it holds an unpaired surrogate -/
  | string (s : Option String)
  | array (items : List Tree)
  | object (entries : List (Option String × Tree))
deriving Repr, Inhabited

/-- How deep arrays and objects may be nested. -/
def depthLimit : Nat := 127

/-! ## The grammar -/

/-- A character that may stand between tokens. -/
def isSpace (c : Char) : Bool :=
  c == ' ' || c == '\n' || c == '\t' || c == '\r'

/-- The text without the space in front. -/
def skipSpace (input : List Char) : List Char :=
  input.dropWhile isSpace

/-- The value of a hexadecimal digit. -/
def hexValue? (c : Char) : Option Nat :=
  if '0' ≤ c && c ≤ '9' then some (c.toNat - '0'.toNat)
  else if 'a' ≤ c && c ≤ 'f' then some (c.toNat - 'a'.toNat + 10)
  else if 'A' ≤ c && c ≤ 'F' then some (c.toNat - 'A'.toNat + 10)
  else none

/-- The value of four hexadecimal digits. -/
def hexQuad? (a b c d : Char) : Option Nat := do
  return (((← hexValue? a) * 16 + (← hexValue? b)) * 16 + (← hexValue? c)) * 16 + (← hexValue? d)

/-- A unit of a quoted text: a character, or half of a surrogate pair. -/
inductive Unit16
  | char (c : Char)
  | high (n : Nat)
  | low (n : Nat)
deriving Repr

/-- The unit that a `\u` escape stands for. -/
def Unit16.ofCode (code : Nat) : Unit16 :=
  if 0xD800 ≤ code && code < 0xDC00 then high (code - 0xD800)
  else if 0xDC00 ≤ code && code < 0xE000 then low (code - 0xDC00)
  else char (Char.ofNat code)

/-- The text of units, if every surrogate has its partner. -/
def Unit16.text? : List Unit16 → Option (List Char)
  | [] => some []
  | char c :: rest => (text? rest).map (c :: ·)
  | high h :: low l :: rest =>
      (text? rest).map (Char.ofNat (0x10000 + h * 0x400 + l) :: ·)
  | _ => none

/-- What a letter behind a backslash stands for. -/
def letterEscape? : Char → Option Char
  | '"' => some '"'
  | '\\' => some '\\'
  | '/' => some '/'
  | 'b' => some '\x08'
  | 'f' => some '\x0c'
  | 'n' => some '\n'
  | 'r' => some '\r'
  | 't' => some '\t'
  | _ => none

/-- Reads the units of a quoted text behind its opening quote, up to the closing one. -/
def readUnits? : List Char → Option (List Unit16 × List Char)
  | [] => none
  | '"' :: rest => some ([], rest)
  | '\\' :: 'u' :: a :: b :: c :: d :: rest => do
      let code ← hexQuad? a b c d
      let (units, rest) ← readUnits? rest
      return (.ofCode code :: units, rest)
  | '\\' :: letter :: rest => do
      let c ← letterEscape? letter
      let (units, rest) ← readUnits? rest
      return (.char c :: units, rest)
  | c :: rest =>
      if c.toNat < 0x20 || c == '\\' then none
      else do
        let (units, rest) ← readUnits? rest
        return (.char c :: units, rest)

/-- Reads a quoted text behind its opening quote. -/
def readString? (input : List Char) : Option (Option String × List Char) := do
  let (units, rest) ← readUnits? input
  return ((Unit16.text? units).map String.ofList, rest)

/-- Reads a run of at least one digit. -/
def readDigits? (input : List Char) : Option (List Char × List Char) :=
  match input.takeWhile Char.isDigit with
  | [] => none
  | digits => some (digits, input.dropWhile Char.isDigit)

/-- Reads the part of a number behind its point, if there is one. -/
def readFraction? : List Char → Option (Option (List Char) × List Char)
  | '.' :: rest => (readDigits? rest).map fun (digits, rest) => (some digits, rest)
  | rest => some (none, rest)

/-- Reads the digits of an exponent and gives them a sign. -/
def readSignedDigits? (negative : Bool) (input : List Char) :
    Option (Option Int × List Char) :=
  (readDigits? input).map fun (digits, rest) =>
    let value : Int := Text.ofDigits digits
    (some (if negative then -value else value), rest)

/-- Reads the exponent of a number, if there is one. -/
def readExponent? : List Char → Option (Option Int × List Char)
  | e :: rest =>
      if e == 'e' || e == 'E' then
        match rest with
        | '+' :: rest => readSignedDigits? false rest
        | '-' :: rest => readSignedDigits? true rest
        | rest => readSignedDigits? false rest
      else some (none, e :: rest)
  | [] => some (none, [])

/-- Reads a number behind its sign; a leading zero stands alone. -/
def readNumber? (negative : Bool) (input : List Char) : Option (Tree × List Char) := do
  let (whole, rest) ← readDigits? input
  if whole.length > 1 && whole.head? == some '0' then none
  else
    let (fraction, rest) ← readFraction? rest
    let (exponent, rest) ← readExponent? rest
    return (.number ⟨negative, whole, fraction, exponent⟩, rest)

mutual

/-- Reads one value behind the space in front of it. -/
def readTreeWithin : Nat → List Char → Option (Tree × List Char)
  | 0, _ => none
  | budget + 1, input =>
      match input with
      | 'n' :: 'u' :: 'l' :: 'l' :: rest => some (.null, rest)
      | 't' :: 'r' :: 'u' :: 'e' :: rest => some (.bool true, rest)
      | 'f' :: 'a' :: 'l' :: 's' :: 'e' :: rest => some (.bool false, rest)
      | '"' :: rest => (readString? rest).map fun (s, rest) => (.string s, rest)
      | '-' :: rest => readNumber? true rest
      | '[' :: rest =>
          match skipSpace rest with
          | ']' :: rest => some (.array [], rest)
          | rest => (readItemsWithin budget rest).map fun (items, rest) => (.array items, rest)
      | '\x7b' :: rest =>
          match skipSpace rest with
          | '\x7d' :: rest => some (.object [], rest)
          | rest =>
              (readEntriesWithin budget rest).map fun (entries, rest) => (.object entries, rest)
      | rest => readNumber? false rest

/-- Reads the items of an array up to its closing bracket. -/
def readItemsWithin : Nat → List Char → Option (List Tree × List Char)
  | 0, _ => none
  | budget + 1, input => do
      let (item, rest) ← readTreeWithin budget input
      match skipSpace rest with
      | ',' :: rest => do
          let (items, rest) ← readItemsWithin budget (skipSpace rest)
          return (item :: items, rest)
      | ']' :: rest => return ([item], rest)
      | _ => none

/-- Reads the entries of an object up to its closing brace. -/
def readEntriesWithin : Nat → List Char → Option (List (Option String × Tree) × List Char)
  | 0, _ => none
  | budget + 1, input =>
      match input with
      | '"' :: rest => do
          let (name, rest) ← readString? rest
          match skipSpace rest with
          | ':' :: rest => do
              let (value, rest) ← readTreeWithin budget (skipSpace rest)
              match skipSpace rest with
              | ',' :: rest => do
                  let (entries, rest) ← readEntriesWithin budget (skipSpace rest)
                  return ((name, value) :: entries, rest)
              | '\x7d' :: rest => return ([(name, value)], rest)
              | _ => none
          | _ => none
      | _ => none

end

/-- The tree of a text that holds one value and space around it. -/
def Tree.read? (text : String) : Option Tree := do
  let input := text.toList
  let (tree, rest) ← readTreeWithin (2 * input.length + 1) (skipSpace input)
  if (skipSpace rest).isEmpty then return tree else none

/-! ## Values -/

/-- The value of a number: an integer where it has neither point nor exponent and fits 64 bits, else
a double; the negative of zero is a double. -/
def Numeral.value? (n : Numeral) : Option Number :=
  let size := Text.ofDigits n.whole
  let double := (Text.Double.ofDecimal? n.negative n.whole (n.fraction.getD [])
    (n.exponent.getD 0)).map Number.double
  if n.fraction.isSome || n.exponent.isSome then double
  else if n.negative then
    if 0 < size && size ≤ Nat.pow 2 63 then some (.neg size) else double
  else if size < Nat.pow 2 64 then some (.nat size) else double

mutual

/-- The value of a tree, if it has one within so many levels of nesting. -/
def Tree.value? (depth : Nat) : Tree → Option Json
  | .null => some .null
  | .bool b => some (.bool b)
  | .number n => n.value?.map .number
  | .string s => s.map .string
  | .array items =>
      match depth with
      | 0 => none
      | depth + 1 => (Tree.values? depth items).map .array
  | .object entries =>
      match depth with
      | 0 => none
      | depth + 1 => (Tree.entryValues? depth entries).map .object

def Tree.values? (depth : Nat) : List Tree → Option (List Json)
  | [] => some []
  | item :: rest => do return (← Tree.value? depth item) :: (← Tree.values? depth rest)

def Tree.entryValues? (depth : Nat) : List (Option String × Tree) → Option (List (String × Json))
  | [] => some []
  | (name, value) :: rest => do
      return ((← name), (← Tree.value? depth value)) :: (← Tree.entryValues? depth rest)

end

/-- A way of giving trees values: how much of a tree has to have one. -/
abbrev Reading := Nat → Tree → Option Json

/-- All of the tree has to have a value. -/
def Reading.whole : Reading :=
  fun depth tree => tree.value? depth

/-- The named fields of an object have to have values, and of the others only the names; the others
are dropped.  An array holds the fields in order. -/
def Reading.record (fields : List (String × Reading)) : Reading
  | depth + 1, .object entries =>
      let kept := entries.filterMap fun (name, value) =>
        match name with
        | none => some none
        | some name => (fields.find? (·.1 == name)).map fun field =>
            (field.2 depth value).map fun json => (name, json)
      (kept.mapM id).map Json.object
  | depth + 1, .array items =>
      let readings := fields.map Prod.snd ++ List.replicate items.length Reading.whole
      ((items.zip readings).mapM fun (pair : Tree × Reading) => pair.2 depth pair.1).map Json.array
  | depth, tree => tree.value? depth

/-- The value of a text. -/
def read? (reading : Reading) (text : String) : Option Json :=
  (Tree.read? text).bind (reading depthLimit)

end DebugBridge.Json
