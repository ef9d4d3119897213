import DebugBridge.Codec.Event
import DebugBridge.Json.Decode

/-!
# Messages between host and bridge

The host sends requests, one JSON-RPC 2.0 object a line; the bridge answers each that carries an
identifier, and sends notifications of its own accord.  What a message carries as data is kept in
normal form.
-/

namespace DebugBridge.Bridge

/-- What identifies a request. -/
inductive RequestId
  | text (s : String)
  | number (n : Int)
deriving DecidableEq, Repr

namespace RequestId

def toJson : RequestId → Json
  | text s => .string s
  | number n => .int n

/-- The decoder of an identifier: a text or an integer of 64 bits. -/
def decoder : Json.Decoder RequestId
  | .string s => .ok (text s)
  | json => match Json.Decoder.integer 64 json with
    | .ok n => .ok (number n)
    | .error _ => .error (.noForm "RequestId")

end RequestId

def version : String := "2.0"

/-- An entry of an object that is left out when it has no value. -/
def entry? (name : String) (value : Option Json) : List (String × Json) :=
  (value.map fun json => (name, json)).toList

/-- A request of the host. -/
structure Request where
  jsonrpc : String
  id : Option RequestId
  method : String
  params : Option Json
deriving Repr

namespace Request

def record : Json.Record Request :=
  Request.mk <$> .required "jsonrpc" .string <*> .nullable "id" RequestId.decoder <*>
    .required "method" .string <*> .optional "params" .value

def decoder : Json.Decoder Request :=
  record.decoder "JsonRpcRequest"

/-- The request that a line spells. -/
def read? (line : String) : Option Request :=
  (Json.read? record.reading line).bind fun json => (decoder json).toOption

def toJson (request : Request) : Json :=
  .object
    ([("jsonrpc", .string request.jsonrpc), ("id", .option RequestId.toJson request.id),
      ("method", .string request.method)] ++ entry? "params" request.params)

end Request

/-- The answer to a request that was carried out. -/
structure Response where
  jsonrpc : String
  id : RequestId
  result : Json
deriving Repr

namespace Response

def record : Json.Record Response :=
  Response.mk <$> .required "jsonrpc" .string <*> .required "id" RequestId.decoder <*>
    .required "result" .value

def decoder : Json.Decoder Response :=
  record.decoder "JsonRpcResponse"

def toJson (response : Response) : Json :=
  .object [("jsonrpc", .string response.jsonrpc), ("id", response.id.toJson),
    ("result", response.result.normal)]

end Response

/-- Why a request was not carried out. -/
inductive Refusal
  | unreadable
  | unknownMethod (method : String)
  /-- the parameters do not fit the method -/
  | badParams (reason : String)
  | internal (reason : String)
  | noSession
  /-- the session could not be started -/
  | startFailed (reason : String)
deriving DecidableEq, Repr

namespace Refusal

/-- The number of a refusal: below -32600 those of the protocol, above those of the bridge. -/
def code : Refusal → Int
  | unreadable => -32700
  | unknownMethod _ => -32601
  | badParams _ => -32602
  | internal _ => -32603
  | noSession => -32000
  | startFailed _ => -32001

def message : Refusal → String
  | unreadable => "Parse error"
  | unknownMethod method => "Method not found: " ++ method
  | badParams reason | internal reason | startFailed reason => reason
  | noSession => "No GDB session is running"

end Refusal

/-- An error as it is sent. -/
structure ErrorObject where
  code : Int
  message : String
  data : Option Json
deriving Repr

namespace ErrorObject

/-- The error that tells of a refusal. -/
def ofRefusal (refusal : Refusal) : ErrorObject :=
  ⟨refusal.code, refusal.message, none⟩

def record : Json.Record ErrorObject :=
  ErrorObject.mk <$> .required "code" (.integer 32) <*> .required "message" .string <*>
    .optional "data" .value

def decoder : Json.Decoder ErrorObject :=
  record.decoder "JsonRpcError"

def toJson (error : ErrorObject) : Json :=
  .object ([("code", .int error.code), ("message", .string error.message)] ++
    entry? "data" error.data)

end ErrorObject

/-- The answer to a request that was not carried out, or to a line that is no request. -/
structure ErrorResponse where
  jsonrpc : String
  id : Option RequestId
  error : ErrorObject
deriving Repr

namespace ErrorResponse

def record : Json.Record ErrorResponse :=
  ErrorResponse.mk <$> .required "jsonrpc" .string <*> .nullable "id" RequestId.decoder <*>
    .required "error" ErrorObject.decoder

/-- How much of the text of an error response has to have a value. -/
def reading : Json.Reading :=
  .record [("jsonrpc", .whole), ("id", .whole), ("error", ErrorObject.record.reading)]

def decoder : Json.Decoder ErrorResponse :=
  record.decoder "JsonRpcErrorResponse"

def toJson (response : ErrorResponse) : Json :=
  .object [("jsonrpc", .string response.jsonrpc), ("id", .option RequestId.toJson response.id),
    ("error", response.error.toJson)]

end ErrorResponse

/-- The line that answers a request that was carried out. -/
def resultLine (id : RequestId) (result : Json) : String :=
  (Response.toJson ⟨version, id, result⟩).render

/-- The line that answers with a refusal. -/
def refusalLine (id : Option RequestId) (refusal : Refusal) : String :=
  (ErrorResponse.toJson ⟨version, id, .ofRefusal refusal⟩).render

/-- A message to the host that answers no request. -/
structure Notification where
  jsonrpc : String
  method : String
  params : Option Json
deriving Repr

namespace Notification

/-- Tells of an event of the session. -/
def ofEvent (event : Event) : Notification :=
  ⟨version, "session/event", some event.toJson.normal⟩

/-- Asks the editor to show a place. -/
def navigate (path : String) (line : Nat) : Notification :=
  ⟨version, "editor/navigate", some (.object [("line", .nat line), ("path", .string path)])⟩

def record : Json.Record Notification :=
  Notification.mk <$> .required "jsonrpc" .string <*> .required "method" .string <*>
    .optional "params" .value

def decoder : Json.Decoder Notification :=
  record.decoder "Notification"

def toJson (notification : Notification) : Json :=
  .object
    ([("jsonrpc", .string notification.jsonrpc), ("method", .string notification.method)] ++
      entry? "params" notification.params)

def line (notification : Notification) : String :=
  notification.toJson.render

end Notification

end DebugBridge.Bridge
