import DebugBridge.Config
import DebugBridge.Json.Decode

/-!
# Links as JSON

A link is an object whose field `type` tells how the others are to be read.  It also decodes from
an array whose first element is the type.
-/

namespace DebugBridge.Link

def toJson : Link → Json
  | tcp host port =>
      .object [("type", .string "tcp"), ("host", .string host), ("port", .nat port)]
  | serial port baudRate =>
      .object [("type", .string "serial"), ("port", .string port),
        ("baud_rate", .option .nat baudRate)]

/-- The types of links. -/
inductive Kind
  | tcp
  | serial
deriving DecidableEq, Repr

namespace Kind

/-- The type that the tag of a link names. -/
def ofTag : Json → Except Json.DecodeError Kind
  | .string "tcp" => .ok tcp
  | .string "serial" => .ok serial
  | .string name => .error (.unknownVariant name ["tcp", "serial"])
  | json => .error (.invalidType json "variant identifier")

def record : Kind → Json.Record Link
  | tcp => Link.tcp <$> .required "host" .string <*> .required "port" (.word 16)
  | serial => Link.serial <$> .required "port" .string <*> .optional "baud_rate" (.word 32)

/-- What is decoded, as an error says it. -/
def expected : Kind → String
  | tcp => "struct variant RemoteTargetConfig::Tcp"
  | serial => "struct variant RemoteTargetConfig::Serial"

end Kind

/-- The tag among entries, which stands there once, and the entries without it. -/
def splitTag (kind : Option Kind) : List (String × Json) →
    Except Json.DecodeError (Kind × List (String × Json))
  | [] => match kind with
    | some kind => .ok (kind, [])
    | none => .error (.missingField "type")
  | (name, json) :: rest =>
      if name = "type" then
        match kind with
        | some _ => .error (.duplicateField "type")
        | none => do splitTag (some (← Kind.ofTag json)) rest
      else do
        let (kind, others) ← splitTag kind rest
        return (kind, (name, json) :: others)

/-- What an array may hold at most, as an error says it. -/
def elements (count : Nat) : String :=
  toString count ++ (if count == 1 then " element" else " elements") ++ " in sequence"

def decoder : Json.Decoder Link
  | .object entries => do
      let (kind, fields) ← splitTag none entries
      kind.record.ofEntries kind.expected fields
  | .array [] => .error (.missingField "type")
  | .array (tag :: items) => do
      let kind ← Kind.ofTag tag
      let record := kind.record
      record.ofItems kind.expected
        (.invalidLength items.length (elements record.fields.length)) items
  | json => .error (.invalidType json "internally tagged enum RemoteTargetConfig")

end DebugBridge.Link
