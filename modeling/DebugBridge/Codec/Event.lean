import DebugBridge.Codec.Value
import DebugBridge.Event

/-!
# Events as JSON

A stop reason of the list is its keyword, another one an object `unknown`.  An event is an object
with its kind and, the end of the session apart, its data.
-/

namespace DebugBridge

namespace StopReason

def toJson : StopReason → Json
  | unknown keyword => .object [("unknown", .string keyword)]
  | reason => .string reason.keyword

def decoder : Json.Decoder StopReason
  | .object [("unknown", json)] => (Json.Decoder.string json).map unknown
  | json => Json.Decoder.keyword "StopReason" (listed.map fun r => (r.keyword, r)) json

end StopReason

namespace AsyncRecord

def toJson (record : AsyncRecord) : Json :=
  .object [("name", .string record.name), ("payload", record.payload.toJson)]

def record : Json.Record AsyncRecord :=
  AsyncRecord.mk <$> .required "name" .string <*> .required "payload" Value.decoder

def decoder : Json.Decoder AsyncRecord :=
  record.decoder "GdbEvent"

end AsyncRecord

namespace Event

def kind : Event → String
  | exec _ => "exec"
  | notify _ => "notify"
  | console _ => "console"
  | log _ => "log"
  | target _ => "target"
  | output _ => "output"
  | commandSent _ => "command-sent"
  | exited => "exited"

def data? : Event → Option Json
  | exec record | notify record => some record.toJson
  | console text | log text | target text | output text | commandSent text => some (.string text)
  | exited => none

def toJson (event : Event) : Json :=
  .object ([("kind", .string event.kind)] ++ (event.data?.map fun data => ("data", data)).toList)

end Event

end DebugBridge
