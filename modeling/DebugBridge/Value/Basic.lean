import DebugBridge.Text.Numeral

/-!
# Values of the machine interface

A debugger describes its answers by values: texts, lists, and tuples of named values.  A tuple
keeps its names in order of first appearance, and each name once; a name that arrives again is
folded into a list (`Entries.fold`).  The numbers of the interface are texts, read on demand.

## Main definitions

* `Value`, and `Value.Entries` for the content of a tuple.
* `Value.Entries.set` overwrites in place, `Value.Entries.fold` collects repeated names.
* `Value.get?`, `Value.text?`, `Value.word?`, `Value.all` look a name up in a tuple.
-/

namespace DebugBridge

/-- A value of the machine interface. -/
inductive Value
  /-- a text, with its escapes as they were written -/
  | text (content : String)
  | list (items : List Value)
  | tuple (entries : List (String × Value))
deriving Repr, Inhabited

namespace Value

mutual

def decEq : (first second : Value) → Decidable (first = second)
  | text a, text b =>
      if h : a = b then isTrue (h ▸ rfl) else isFalse fun e => h (Value.text.inj e)
  | list a, list b =>
      match decEqItems a b with
      | isTrue h => isTrue (h ▸ rfl)
      | isFalse h => isFalse fun e => h (Value.list.inj e)
  | tuple a, tuple b =>
      match decEqEntries a b with
      | isTrue h => isTrue (h ▸ rfl)
      | isFalse h => isFalse fun e => h (Value.tuple.inj e)
  | text _, list _ | text _, tuple _ | list _, text _ | list _, tuple _ | tuple _, text _
  | tuple _, list _ => isFalse nofun

def decEqItems : (first second : List Value) → Decidable (first = second)
  | [], [] => isTrue rfl
  | a :: as, b :: bs =>
      match decEq a b, decEqItems as bs with
      | isTrue h, isTrue hs => isTrue (h ▸ hs ▸ rfl)
      | isFalse h, _ => isFalse fun e => h (List.cons.inj e).1
      | _, isFalse hs => isFalse fun e => hs (List.cons.inj e).2
  | [], _ :: _ | _ :: _, [] => isFalse nofun

def decEqEntries : (first second : List (String × Value)) → Decidable (first = second)
  | [], [] => isTrue rfl
  | (m, a) :: as, (n, b) :: bs =>
      if hn : m = n then
        match decEq a b, decEqEntries as bs with
        | isTrue h, isTrue hs => isTrue (hn ▸ h ▸ hs ▸ rfl)
        | isFalse h, _ => isFalse fun e => h (Prod.mk.inj (List.cons.inj e).1).2
        | _, isFalse hs => isFalse fun e => hs (List.cons.inj e).2
      else isFalse fun e => hn (Prod.mk.inj (List.cons.inj e).1).1
  | [], _ :: _ | _ :: _, [] => isFalse nofun

end

instance : DecidableEq Value := decEq

/-- The content of a tuple: names with their values, in order of first appearance. -/
abbrev Entries := List (String × Value)

namespace Entries

/-- The value stored under a name. -/
def find? (name : String) : Entries → Option Value
  | [] => none
  | (stored, value) :: rest => if stored = name then some value else find? name rest

/-- Updates the value that is stored under a name; a value that is not there comes at the end. -/
def upsert (name : String) (value : Value) (update : Value → Value) : Entries → Entries
  | [] => [(name, value)]
  | (stored, old) :: rest =>
      if stored = name then (stored, update old) :: rest
      else (stored, old) :: upsert name value update rest

/-- Stores a value under a name: in place of the value that is there, else at the end. -/
def set (name : String) (value : Value) (entries : Entries) : Entries :=
  entries.upsert name value fun _ => value

end Entries

/-- A stored value together with one more that arrived under its name: a list takes the newcomer
at its end, any other value makes a list of two. -/
def joinedWith : Value → Value → Value
  | list items, newcomer => list (items ++ [newcomer])
  | old, newcomer => list [old, newcomer]

/-- Adds a named value to a tuple; one whose name is there already is joined with what is stored,
which keeps its place. -/
def Entries.fold (name : String) (value : Value) (entries : Entries) : Entries :=
  entries.upsert name value (·.joinedWith value)

/-- The tuple that collects a sequence of named values, first to last. -/
def Entries.collect (pairs : Entries) : Entries :=
  pairs.foldl (fun entries pair => entries.fold pair.1 pair.2) []

def emptyTuple : Value :=
  tuple []

def asText? : Value → Option String
  | text content => some content
  | _ => none

def asList? : Value → Option (List Value)
  | list items => some items
  | _ => none

def asTuple? : Value → Option Entries
  | tuple entries => some entries
  | _ => none

/-- The value under a name of a tuple. -/
def get? (value : Value) (name : String) : Option Value :=
  value.asTuple?.bind (Entries.find? name)

/-- The text under a name of a tuple. -/
def text? (value : Value) (name : String) : Option String :=
  (value.get? name).bind asText?

/-- The number of at most 32 bits that the text under a name spells. -/
def word? (value : Value) (name : String) : Option Nat :=
  (value.text? name).bind Text.readWord32

/-- All values under a name: the items of a list, else the one value that is there. -/
def all (value : Value) (name : String) : List Value :=
  match value.get? name with
  | some (list items) => items
  | some one => [one]
  | none => []

/-- The number of items of a list or entries of a tuple; a text has none. -/
def size : Value → Nat
  | text _ => 0
  | list items => items.length
  | tuple entries => entries.length

end Value

end DebugBridge
