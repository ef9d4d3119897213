import DebugBridge.Json.Tree
import DebugBridge.Text.Quoted

/-!
# Decoding JSON values

A `Decoder` takes a JSON value to a value of a type or says why it cannot.  `Record` decodes
structures: from an object by the names of the fields, or from an array by their positions.

The fields of an object are decoded in the order of its entries, and the first that fails decides
the error; fields that are missing are reported after that, in the order of their declaration.
-/

namespace DebugBridge.Json

/-- What a value is, as an error names it. -/
def kind : Json → String
  | null => "null"
  | bool b => "boolean `" ++ (if b then "true" else "false") ++ "`"
  | number (.double bits) => "floating point `" ++ Text.Double.shortest bits ++ "`"
  | number n => "integer `" ++ n.render ++ "`"
  | string s => "string " ++ Text.quoted s
  | array _ => "sequence"
  | object _ => "map"

/-- Why a value does not decode. -/
inductive DecodeError
  /-- a value of another kind was expected -/
  | invalidType (found : Json) (expected : String)
  /-- the value is of the right kind, but not in range -/
  | invalidValue (found : Json) (expected : String)
  /-- an array has too few or too many elements -/
  | invalidLength (length : Nat) (expected : String)
  | missingField (name : String)
  | duplicateField (name : String)
  | unknownVariant (name : String) (expected : List String)
  /-- none of the forms of a type fits -/
  | noForm (type : String)
deriving Repr

/-- Alternatives in a message. -/
def oneOf : List String → String
  | [] => "there are no variants"
  | [only] => "expected `" ++ only ++ "`"
  | [first, second] => "expected `" ++ first ++ "` or `" ++ second ++ "`"
  | many => "expected one of " ++ ", ".intercalate (many.map fun name => "`" ++ name ++ "`")

def DecodeError.message : DecodeError → String
  | invalidType found expected => "invalid type: " ++ found.kind ++ ", expected " ++ expected
  | invalidValue found expected => "invalid value: " ++ found.kind ++ ", expected " ++ expected
  | invalidLength length expected =>
      "invalid length " ++ toString length ++ ", expected " ++ expected
  | missingField name => "missing field `" ++ name ++ "`"
  | duplicateField name => "duplicate field `" ++ name ++ "`"
  | unknownVariant name expected => "unknown variant `" ++ name ++ "`, " ++ oneOf expected
  | noForm type => "data did not match any variant of untagged enum " ++ type

/-- A decoder of values of a type. -/
abbrev Decoder (α : Type) := Json → Except DecodeError α

namespace Decoder

/-- Any value, in normal form. -/
def value : Decoder Json :=
  fun json => .ok json.normal

/-- A text; the argument says what is expected. -/
def text (expected : String) : Decoder String
  | .string s => .ok s
  | json => .error (.invalidType json expected)

def string : Decoder String :=
  text "a string"

def path : Decoder String :=
  text "path string"

def bool : Decoder Bool
  | .bool b => .ok b
  | json => .error (.invalidType json "a boolean")

/-- A natural number of so many bits. -/
def word (bits : Nat) : Decoder Nat
  | .number (.nat n) =>
      if n < Nat.pow 2 bits then .ok n
      else .error (.invalidValue (.number (.nat n)) ("u" ++ toString bits))
  | .number (.neg n) => .error (.invalidValue (.number (.neg n)) ("u" ++ toString bits))
  | json => .error (.invalidType json ("u" ++ toString bits))

/-- An integer of so many bits, sign included. -/
def integer (bits : Nat) : Decoder Int
  | .number (.nat n) =>
      if n < Nat.pow 2 (bits - 1) then .ok n
      else .error (.invalidValue (.number (.nat n)) ("i" ++ toString bits))
  | .number (.neg n) =>
      if n ≤ Nat.pow 2 (bits - 1) then .ok (-(n : Int))
      else .error (.invalidValue (.number (.neg n)) ("i" ++ toString bits))
  | json => .error (.invalidType json ("i" ++ toString bits))

/-- A value or `null`. -/
def optional {α : Type} (decoder : Decoder α) : Decoder (Option α)
  | .null => .ok none
  | json => (decoder json).map some

/-- An array of values. -/
def sequence {α : Type} (decoder : Decoder α) : Decoder (List α)
  | .array items => items.mapM decoder
  | json => .error (.invalidType json "a sequence")

/-- One of several keywords; a keyword also stands for itself as the only name of an object whose
value is `null`. -/
def keyword {α : Type} (type : String) (names : List (String × α)) : Decoder α
  | .string s => find s
  | .object [(s, .null)] => find s
  | .object [(s, json)] => find s >>= fun _ => .error (.invalidType json "unit")
  | json => .error (.invalidType json ("enum " ++ type))
where
  find (s : String) : Except DecodeError α :=
    match names.find? (·.1 == s) with
    | some (_, a) => .ok a
    | none => .error (.unknownVariant s (names.map Prod.fst))

end Decoder

/-! ## Structures -/

/-- Where the fields of a structure come from. -/
inductive Fields
  | byName (entries : List (String × Json))
  | byPosition (items : List Json)

/-- A field as far as checking goes: its name, and whether a value decodes. -/
structure FieldCheck where
  name : String
  check : Json → Except DecodeError Unit

/-- A decoder of a structure: its fields, and how they make a value.  The number that `build` takes
is the position of the first of the fields. -/
structure Record (α : Type) where
  fields : List FieldCheck
  build : (expected : String) → Nat → Fields → Except DecodeError α

namespace Record

/-- A structure without fields. -/
protected def pure {α : Type} (a : α) : Record α :=
  ⟨[], fun _ _ _ => .ok a⟩

/-- The fields of two structures, one behind the other. -/
protected def seq {α β : Type} (f : Record (α → β)) (x : Unit → Record α) : Record β :=
  ⟨f.fields ++ (x ()).fields, fun expected start fields => do
    let g ← f.build expected start fields
    let a ← (x ()).build expected (start + f.fields.length) fields
    return g a⟩

instance : Applicative Record where
  pure := Record.pure
  seq := Record.seq

/-- A field; `byName` and `byPosition` say what holds when an object or an array lacks it. -/
def field {α : Type} (name : String) (decoder : Decoder α) (byName byPosition : Option α) :
    Record α where
  fields := [⟨name, fun json => (decoder json).map fun _ => ()⟩]
  build expected position
    | .byName entries =>
        match find? name entries, byName with
        | some json, _ => decoder json
        | none, some a => .ok a
        | none, none => .error (.missingField name)
    | .byPosition items =>
        match items[position]?, byPosition with
        | some json, _ => decoder json
        | none, some a => .ok a
        | none, none => .error (.invalidLength position expected)

/-- A field that has to be there. -/
def required {α : Type} (name : String) (decoder : Decoder α) : Record α :=
  field name decoder none none

/-- A field that holds a default when it is missing. -/
def defaulted {α : Type} (name : String) (decoder : Decoder α) (default : α) : Record α :=
  field name decoder (some default) (some default)

/-- A field that may be `null` or missing. -/
def optional {α : Type} (name : String) (decoder : Decoder α) : Record (Option α) :=
  defaulted name (Decoder.optional decoder) none

/-- A field that may be `null`, or missing from an object. -/
def nullable {α : Type} (name : String) (decoder : Decoder α) : Record (Option α) :=
  field name (Decoder.optional decoder) (some none) none

/-- Checks the fields among the entries of an object in their order, each name once. -/
def checkEntries (checks : List FieldCheck) (seen : List String) :
    List (String × Json) → Except DecodeError Unit
  | [] => .ok ()
  | (name, json) :: rest =>
      match checks.find? (·.name == name) with
      | none => checkEntries checks seen rest
      | some field =>
          if seen.contains name then .error (.duplicateField name)
          else do
            field.check json
            checkEntries checks (name :: seen) rest

/-- What an array has to hold, as an error says it. -/
def expectedElements {α : Type} (record : Record α) (type : String) : String :=
  type ++ " with " ++ toString record.fields.length ++
    (if record.fields.length == 1 then " element" else " elements")

/-- A structure from the entries of an object. -/
def ofEntries {α : Type} (record : Record α) (type : String) (entries : List (String × Json)) :
    Except DecodeError α := do
  checkEntries record.fields [] entries
  record.build (record.expectedElements type) 0 (.byName entries)

/-- A structure from the items of an array; `excess` says what is wrong when there are more items
than fields. -/
def ofItems {α : Type} (record : Record α) (type : String) (excess : DecodeError)
    (items : List Json) : Except DecodeError α := do
  let a ← record.build (record.expectedElements type) 0 (.byPosition items)
  if record.fields.length < items.length then .error excess else return a

def decoder {α : Type} (record : Record α) (name : String) : Decoder α
  | .object entries => record.ofEntries ("struct " ++ name) entries
  | .array items =>
      record.ofItems ("struct " ++ name)
        (.invalidLength items.length "fewer elements in array") items
  | json => .error (.invalidType json ("struct " ++ name))

/-- How much of a text has to have a value for a structure to be decoded from it. -/
def reading {α : Type} (record : Record α) : Reading :=
  Reading.record (record.fields.map fun field => (field.name, Reading.whole))

end Record

end DebugBridge.Json
