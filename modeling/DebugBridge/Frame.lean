import DebugBridge.Value.Basic

/-!
# Stack frames and variables

The two things that stack listings hold, read from the values in which a debugger describes them.
Fields that are missing or of the wrong kind are absent; fields with other names do not matter.
-/

namespace DebugBridge

structure Frame where
  level : Option Nat
  addr : Option String
  func : Option String
  file : Option String
  fullname : Option String
  line : Option Nat
deriving DecidableEq, Repr

namespace Frame

/-- The frame that a tuple describes; another value describes none. -/
def ofValue? (value : Value) : Option Frame :=
  value.asTuple?.map fun _ =>
    { level := value.word? "level"
      addr := value.text? "addr"
      func := value.text? "func"
      file := value.text? "file"
      fullname := value.text? "fullname"
      line := value.word? "line" }

/-- The place in the sources, when the frame names a file by its full path, and a line. -/
def location? (frame : Frame) : Option (String × Nat) :=
  match frame.fullname, frame.line with
  | some path, some line => if path.isEmpty then none else some (path, line)
  | _, _ => none

end Frame

/-- A variable of a frame, with its value when that is known. -/
structure Variable where
  name : String
  value : Option String
deriving DecidableEq, Repr

/-- The variable that a value describes; one without a name describes none. -/
def Variable.ofValue? (value : Value) : Option Variable :=
  (value.text? "name").map fun name => { name, value := value.text? "value" }

end DebugBridge
