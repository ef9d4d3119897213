import DebugBridge.Json.Decode
import DebugBridge.Value.Basic

/-!
# Values as JSON

A text is a string, a list an array and a tuple an object whose entries keep their order.  Decoding
an object whose names repeat keeps the place of the first and the value of the last.
-/

namespace DebugBridge.Value

mutual

def toJson : Value → Json
  | text content => .string content
  | list items => .array (itemsToJson items)
  | tuple entries => .object (entriesToJson entries)

def itemsToJson : List Value → List Json
  | [] => []
  | item :: rest => toJson item :: itemsToJson rest

def entriesToJson : List (String × Value) → List (String × Json)
  | [] => []
  | (name, value) :: rest => (name, toJson value) :: entriesToJson rest

end

mutual

/-- The value that a JSON value stands for, if it is made of strings, arrays and objects. -/
def ofJson? : Json → Option Value
  | .string content => some (text content)
  | .array items => (itemsOfJson? items).map list
  | .object entries => (entriesOfJson? [] entries).map tuple
  | .null => none
  | .bool _ => none
  | .number _ => none

/-- The values that the items of an array stand for. -/
def itemsOfJson? : List Json → Option (List Value)
  | [] => some []
  | item :: rest => do return (← ofJson? item) :: (← itemsOfJson? rest)

/-- Entries together with those that the entries of an object stand for. -/
def entriesOfJson? (found : Entries) : List (String × Json) → Option Entries
  | [] => some found
  | (name, json) :: rest => do
      let value ← ofJson? json
      entriesOfJson? (found.set name value) rest

end

def decoder : Json.Decoder Value :=
  fun json => match ofJson? json with
    | some value => .ok value
    | none => .error (.noForm "MiValue")

end DebugBridge.Value
