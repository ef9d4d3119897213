/-!
# File paths by components

A path is a text, but two texts name the same place when their components agree: a run of slashes
counts once, and a component `.` counts only at the front of a relative path.  `Path.components`
is that view; `Path.parent?` and `Path.fileName?` cut the last component off and keep the spelling
of what remains.
-/

namespace DebugBridge.Text

/-- A step of a path. -/
inductive Component
  /-- the root of an absolute path -/
  | root
  /-- a leading `.` of a relative path -/
  | here
  /-- `..` -/
  | up
  | named (name : String)
deriving DecidableEq, Repr

namespace Path

/-- The pieces of a text between slashes, first to last. -/
def pieces : List Char → List (List Char)
  | [] => [[]]
  | c :: rest =>
      if c == '/' then [] :: pieces rest
      else match pieces rest with
        | [] => [[c]]
        | piece :: others => (c :: piece) :: others

/-- Pieces joined by slashes again. -/
def join : List (List Char) → List Char
  | [] => []
  | [piece] => piece
  | piece :: rest => piece ++ '/' :: join rest

/-- A piece that is no component: an empty one, or a `.` behind the front. -/
def isIdle (piece : List Char) : Bool :=
  piece == [] || piece == ['.']

/-- The front of a path, which stands for itself (`/` or a leading `.`), and the text behind it. -/
def front : List Char → List Char × List Char
  | '/' :: rest => (['/'], rest)
  | ['.'] => (['.'], [])
  | '.' :: '/' :: rest => (['.'], '/' :: rest)
  | cs => ([], cs)

/-- The component that a piece stands for. -/
def componentOf (piece : List Char) : Component :=
  if piece == ['.', '.'] then .up else .named (String.ofList piece)

/-- The components of a path. -/
def components (path : String) : List Component :=
  let (lead, body) := front path.toList
  let first := if lead == ['/'] then [Component.root] else if lead == ['.'] then [.here] else []
  first ++ ((pieces body).filter (fun piece => !isIdle piece)).map componentOf

/-- Whether two texts name the same path. -/
def same (first second : String) : Bool :=
  components first == components second

/-- The pieces behind the front in reverse order, without the idle ones at the end. -/
def backwards (body : List Char) : List (List Char) :=
  (pieces body).reverse.dropWhile isIdle

/-- The path without its last component; a root alone and the empty path have none. -/
def parent? (path : String) : Option String :=
  let (lead, body) := front path.toList
  match backwards body with
  | [] => if lead == ['.'] then some "" else none
  | _ :: rest => some (String.ofList (lead ++ join (rest.dropWhile isIdle).reverse))

/-- The last component, if it is a name. -/
def fileName? (path : String) : Option String :=
  match backwards (front path.toList).2 with
  | [] => none
  | last :: _ => if last == ['.', '.'] then none else some (String.ofList last)

end Path

end DebugBridge.Text
