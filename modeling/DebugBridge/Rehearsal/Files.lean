import DebugBridge.Session.Launch
import DebugBridge.Text.Path

/-!
# The files of a machine

A rehearsal may go on as if on a machine of which only some directories and files are known, and on
which no program can be started.  `Files.find?` follows a path step by step and says what stops it;
from that follows everything that a session asks about its machine (`Files.machine`).
-/

namespace DebugBridge.Rehearsal

open Session (Machine StartError)

/-- A place in the tree of files: the names on the way to it from the root. -/
abbrev Place := List String

/-- What is known about the files of a machine. -/
structure Files where
  directories : List Place
  regular : List Place
  /-- what is neither a directory nor a regular file -/
  special : List Place := []
  /-- the links, each with the place that it leads to -/
  links : List (Place × Place) := []
  /-- where paths without a leading slash begin -/
  here : Place
  /-- where a program is looked for that is given by its name alone, in this order -/
  search : List Place := []

namespace Files

/-- Whether something is at a place. -/
def contains (files : Files) (place : Place) : Bool :=
  files.directories.contains place || files.regular.contains place ||
    files.special.contains place

/-- The greatest number of bytes in a name. -/
def longestName : Nat := 255

/-- The greatest number of bytes in a path. -/
def longestPath : Nat := 4095

/-- The place that one step leads to.  A step can only be made in a directory. -/
def step (files : Files) (place : Place) (name : String) : Except StartError Place :=
  if !files.directories.contains place then .error .notDirectory
  else if name == "" || name == "." then .ok place
  else if name == ".." then .ok place.dropLast
  else if name.utf8ByteSize > longestName then .error .nameTooLong
  else
    let next := (files.links.lookup (place ++ [name])).getD (place ++ [name])
    if files.contains next then .ok next else .error .missing

/-- The place that a path leads to from some place. -/
def find? (files : Files) (start : Place) (path : String) : Except StartError Place :=
  if path.isEmpty then .error .missing
  else if path.utf8ByteSize > longestPath then .error .nameTooLong
  else
    let names := (Text.Path.pieces path.toList).map String.ofList
    names.foldlM files.step (if path.startsWith "/" then [] else start)

/-- Whether a path leads to one of some places. -/
def leadsTo (files : Files) (places : List Place) (path : String) : Bool :=
  match files.find? files.here path with
  | .ok place => places.contains place
  | .error _ => false

/-- The place of a directory, and without one the place where the bridge itself runs. -/
def placeOf (files : Files) (directory : Option String) : Place :=
  match directory.map (files.find? files.here) with
  | some (.ok place) => place
  | _ => files.here

/-- Why a program cannot be started that a path leads to. -/
def startErrorAt (files : Files) (start : Place) (path : String) : StartError :=
  match files.find? start path with
  | .ok _ => .denied
  | .error error => error

/-- What a search comes to that has met one error and meets another one: what is missing is looked
for in the next place, and so is what cannot be executed, unless nothing better is found. -/
def prevailing (first second : StartError) : StartError :=
  match first, second with
  | .nameTooLong, _ => .nameTooLong
  | .denied, .nameTooLong => .nameTooLong
  | .denied, _ => .denied
  | _, .notDirectory => .missing
  | _, error => error

/-- Why a program cannot be started in a directory. -/
def startError (files : Files) (directory : Option String) (program : String) : StartError :=
  if program.toList.contains '/' then files.startErrorAt (files.placeOf directory) program
  else if program.isEmpty then .missing
  else (files.search.map (files.startErrorAt · program)).foldl prevailing .missing

def machine (files : Files) : Machine where
  isDirectory := files.leadsTo files.directories
  isFile := files.leadsTo files.regular
  startError? := fun directory program => some (files.startError directory program)

end Files

end DebugBridge.Rehearsal
