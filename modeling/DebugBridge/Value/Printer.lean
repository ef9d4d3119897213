import DebugBridge.Value.Basic

/-!
# Writing values

The written form of a value in the machine interface: a text in quotes with its escapes as they
stand, a list in brackets, a tuple in braces with `name=value` for each entry.
-/

namespace DebugBridge.Value

mutual

/-- The written form of a value. -/
def render : Value → List Char
  | text content => '"' :: (content.toList ++ ['"'])
  | list items => '[' :: (renderItems items ++ [']'])
  | tuple entries => '\x7b' :: (renderEntries entries ++ ['\x7d'])

/-- The written form of the items of a list, with commas between them. -/
def renderItems : List Value → List Char
  | [] => []
  | [item] => render item
  | item :: rest => render item ++ ',' :: renderItems rest

/-- The written form of the entries of a tuple, with commas between them. -/
def renderEntries : List (String × Value) → List Char
  | [] => []
  | [(name, value)] => name.toList ++ '=' :: render value
  | (name, value) :: rest => name.toList ++ '=' :: (render value ++ ',' :: renderEntries rest)

end

end DebugBridge.Value
