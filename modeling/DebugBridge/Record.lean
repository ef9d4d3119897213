import DebugBridge.Event
import DebugBridge.Outcome
import DebugBridge.ParseFailure
import DebugBridge.Text.Blank
import DebugBridge.Text.Escape

/-!
# Output records

One line of a debugger's output, classified by its first character: `^` answers the command in
flight, `*` and `=` are records of their own accord, `~`, `&` and `@` carry text.  Blank lines,
prompts and lines with another beginning are no records.

`^`, `*` and `=` are followed by a class and, behind a comma, by entries.  A failure inside the
entries is reported at its position in the whole line, an ill-formed head or an unknown class at
position 1.
-/

namespace DebugBridge

/-- A classified line of output. -/
inductive Record
  /-- `^`: the answer to the command in flight -/
  | result (outcome : Outcome)
  /-- `*`: a change of execution -/
  | exec (record : AsyncRecord)
  /-- `=`: a notice -/
  | notify (record : AsyncRecord)
  /-- `~`: the console stream -/
  | console (text : String)
  /-- `&`: the log stream -/
  | log (text : String)
  /-- `@`: output of the debugged program -/
  | target (text : String)
deriving DecidableEq, Repr

namespace Record

/-- An ASCII letter. -/
def isLetter (c : Char) : Bool :=
  ('A' ≤ c && c ≤ 'Z') || ('a' ≤ c && c ≤ 'z')

/-- A character of a class behind its first. -/
def inClass (c : Char) : Bool :=
  isLetter c || c.isDigit || c == '_' || c == '-'

/-- The class of a record and the text of its entries, if the text has that form: a letter with
letters, digits, `_` and `-` behind it, and then nothing, or a comma and a text without line
feed. -/
def splitHead? (text : List Char) : Option (List Char × Option (List Char)) :=
  let name := text.takeWhile inClass
  if !(name.head?.map isLetter).getD false then none
  else match text.dropWhile inClass with
    | [] => some (name, none)
    | ',' :: body => if body.contains '\n' then none else some (name, some body)
    | _ => none

/-- The class and the entries behind the first character of a line. -/
def readHead (line text : List Char) : Except ParseFailure (String × Option Value) :=
  match splitHead? text with
  | none => .error (.ofLine "malformed record header" line 1)
  | some (name, none) => .ok (String.ofList name, none)
  | some (name, some body) =>
      match Value.readEntries body with
      | .ok entries => .ok (String.ofList name, some (.tuple entries))
      | .error stop => .error (.ofStop stop body line (Text.utf8Length name + 2))

/-- The answer that a line holds behind its `^`. -/
def readResult (line text : List Char) : Except ParseFailure Outcome := do
  let (name, payload) ← readHead line text
  match Status.ofClass? name with
  | some status => return ⟨status, String.ofList line, payload⟩
  | none => .error (.ofLine ("unknown result class '" ++ name ++ "'") line 1)

/-- The record that a line holds behind its `*` or `=`. -/
def readAsync (line text : List Char) : Except ParseFailure AsyncRecord := do
  let (name, payload) ← readHead line text
  return ⟨name, payload.getD .emptyTuple⟩

/-- A line without white space in front and without line ends behind. -/
def trimLine (line : List Char) : List Char :=
  Text.dropTrailing Text.isLineEnd (line.dropWhile Text.isBlank)

/-- Whether a trimmed line is blank or a prompt. -/
def isIdle (line : List Char) : Bool :=
  line.isEmpty || Text.dropTrailing Text.isBlank line == "(gdb)".toList

/-- The record of a trimmed line that is neither blank nor a prompt. -/
def readTrimmed (line : List Char) : Except ParseFailure (Option Record) :=
  match line with
  | '^' :: text => (readResult line text).map (some ∘ result)
  | '*' :: text => (readAsync line text).map (some ∘ exec)
  | '=' :: text => (readAsync line text).map (some ∘ notify)
  | '~' :: text => .ok (some (console (String.ofList (Text.unquote text))))
  | '&' :: text => .ok (some (log (String.ofList (Text.unquote text))))
  | '@' :: text => .ok (some (target (String.ofList (Text.unescape (Text.unquote text)))))
  | _ => .ok none

/-- The record of a line of output, or `none` for a line that holds no record. -/
def read (line : String) : Except ParseFailure (Option Record) :=
  let trimmed := trimLine line.toList
  if isIdle trimmed then .ok none else readTrimmed trimmed

end Record

end DebugBridge
