import DebugBridge.Value.Basic
import DebugBridge.Text.Utf8

/-!
# Reading values

One forward scan without backtracking over

  value  := '"' chars '"' | '{' [entry (',' entry)*] '}' | '[' [value (',' value)*] ']' | entry
  entry  := name '=' value

A backslash inside quotes stays in the text together with the character behind it.  Each function
answers what it has read and the rest of the text, or why it stopped and the text at that point;
`Stop.offset` turns the latter into a byte position.  The functions recurse on a budget.  No text
uses up what `readValue` and `readEntries` grant, since an opening bracket leads to at most two
calls, and any other call takes a character.
-/

namespace DebugBridge.Value

/-- Why reading stopped. -/
inductive Cause
  | nameExpected
  | equalsExpected
  | equalsExpectedAtEnd
  | valueExpectedAtEnd
  | unterminatedText
  | unterminatedTuple
  | unterminatedList
  | separatorExpected
  | tupleSeparatorExpected
  | listSeparatorExpected
  | trailingInput
deriving DecidableEq, Repr

def Cause.message : Cause → String
  | nameExpected => "expected a name"
  | equalsExpected => "expected '='"
  | equalsExpectedAtEnd => "expected '=', found end of input"
  | valueExpectedAtEnd => "expected a value, found end of input"
  | unterminatedText => "unterminated string"
  | unterminatedTuple => "unterminated tuple"
  | unterminatedList => "unterminated list"
  | separatorExpected => "expected ','"
  | tupleSeparatorExpected => "expected ',' or '\x7d'"
  | listSeparatorExpected => "expected ',' or ']'"
  | trailingInput => "unexpected trailing input"

/-- A cause together with the text that was still unread when it arose. -/
structure Stop where
  cause : Cause
  unread : List Char
deriving DecidableEq, Repr

/-- The byte offset in `input` at which reading stopped. -/
def Stop.offset (stop : Stop) (input : List Char) : Nat :=
  Text.utf8Length input - Text.utf8Length stop.unread

/-- The characters that end a name. -/
def endsName (c : Char) : Bool :=
  c == '=' || c == ',' || c == '\x7b' || c == '\x7d' || c == '[' || c == ']' || c == '"'

/-- Reads a text behind its opening quote. -/
def readText : List Char → Except Stop (List Char × List Char)
  | [] => .error ⟨.unterminatedText, []⟩
  | '"' :: rest => .ok ([], rest)
  | ['\\'] => .error ⟨.unterminatedText, []⟩
  | '\\' :: escaped :: rest => do
      let (body, rest) ← readText rest
      return ('\\' :: escaped :: body, rest)
  | c :: rest => do
      let (body, rest) ← readText rest
      return (c :: body, rest)

/-- Reads a name and the equals sign behind it. -/
def readName (input : List Char) : Except Stop (String × List Char) :=
  match input.takeWhile (fun c => !endsName c), input.dropWhile (fun c => !endsName c) with
  | [], rest => .error ⟨.nameExpected, rest⟩
  | name, '=' :: rest => .ok (String.ofList name, rest)
  | _, [] => .error ⟨.equalsExpectedAtEnd, []⟩
  | _, rest => .error ⟨.equalsExpected, rest⟩

/-- Where the entries of a tuple end. -/
inductive Closing
  /-- at a closing brace -/
  | brace
  /-- at the end of the text -/
  | endOfText
deriving DecidableEq, Repr

mutual

/-- Reads one value. -/
def readValueWithin : Nat → List Char → Except Stop (Value × List Char)
  | 0, input => .error ⟨.valueExpectedAtEnd, input⟩
  | _ + 1, [] => .error ⟨.valueExpectedAtEnd, []⟩
  | budget + 1, c :: rest =>
      if c = '"' then do
        let (body, rest) ← readText rest
        return (text (String.ofList body), rest)
      else if c = '\x7b' then
        match rest with
        | '\x7d' :: rest => .ok (tuple [], rest)
        | rest => do
            let (entries, rest) ← readEntriesWithin budget .brace [] rest
            return (tuple entries, rest)
      else if c = '[' then
        match rest with
        | ']' :: rest => .ok (list [], rest)
        | rest => do
            let (items, rest) ← readItemsWithin budget rest
            return (list items, rest)
      else do
        let (name, rest) ← readName (c :: rest)
        let (value, rest) ← readValueWithin budget rest
        return (tuple [(name, value)], rest)

/-- Reads entries up to the closing and folds them into those read before. -/
def readEntriesWithin : Nat → Closing → Entries → List Char → Except Stop (Entries × List Char)
  | 0, _, _, input => .error ⟨.nameExpected, input⟩
  | budget + 1, closing, entries, input => do
      let (name, rest) ← readName input
      let (value, rest) ← readValueWithin budget rest
      let entries := entries.fold name value
      match closing, rest with
      | _, ',' :: rest => readEntriesWithin budget closing entries rest
      | .brace, '\x7d' :: rest => return (entries, rest)
      | .endOfText, [] => return (entries, [])
      | .brace, [] => .error ⟨.unterminatedTuple, []⟩
      | .brace, rest => .error ⟨.tupleSeparatorExpected, rest⟩
      | .endOfText, rest => .error ⟨.separatorExpected, rest⟩

/-- Reads the items of a list up to its closing bracket. -/
def readItemsWithin : Nat → List Char → Except Stop (List Value × List Char)
  | 0, input => .error ⟨.valueExpectedAtEnd, input⟩
  | budget + 1, input => do
      let (item, rest) ← readValueWithin budget input
      match rest with
      | ',' :: rest => do
          let (items, rest) ← readItemsWithin budget rest
          return (item :: items, rest)
      | ']' :: rest => return ([item], rest)
      | [] => .error ⟨.unterminatedList, []⟩
      | rest => .error ⟨.listSeparatorExpected, rest⟩

end

/-- Reads one value that spans the whole text. -/
def readValue (input : List Char) : Except Stop Value := do
  let (value, rest) ← readValueWithin (2 * input.length + 1) input
  match rest with
  | [] => return value
  | rest => .error ⟨.trailingInput, rest⟩

/-- Reads comma-separated entries that span the whole text; an empty text has none. -/
def readEntries (input : List Char) : Except Stop Entries :=
  match input with
  | [] => .ok []
  | input => (readEntriesWithin (2 * input.length + 1) .endOfText [] input).map Prod.fst

end DebugBridge.Value
