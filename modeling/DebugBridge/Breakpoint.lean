import DebugBridge.Text.Path
import DebugBridge.Value.Basic

/-!
# Breakpoints

A `Breakpoint` is a place in a source file, as an editor knows it; a `BreakpointReport` is what
the debugger says about one it has set.
-/

namespace DebugBridge

/-- A line of a source file. -/
structure Breakpoint where
  file : String
  line : Nat
deriving DecidableEq, Repr, Inhabited

namespace Breakpoint

/-- Whether the breakpoint lies at a place; files are compared by components. -/
def isAt (breakpoint : Breakpoint) (file : String) (line : Nat) : Bool :=
  breakpoint.line == line && Text.Path.same breakpoint.file file

/-- Whether two breakpoints lie at the same place. -/
def same (first second : Breakpoint) : Bool :=
  first.isAt second.file second.line

/-- The argument by which commands name the place: `"file:line"` with forward slashes. -/
def locationArgument (breakpoint : Breakpoint) : String :=
  let file := breakpoint.file.toList.map fun c => if c == '\\' then '/' else c
  "\"" ++ String.ofList file ++ ":" ++ toString breakpoint.line ++ "\""

end Breakpoint

/-- What the debugger says about a breakpoint. -/
structure BreakpointReport where
  number : String
  kind : String
  disposition : String
  enabled : Bool
  addr : Option String
  func : Option String
  file : Option String
  fullname : Option String
  line : Option Nat
  times : Nat
  originalLocation : Option String
deriving DecidableEq, Repr

/-- The report in a value; without a number there is none. -/
def BreakpointReport.ofValue? (value : Value) : Option BreakpointReport :=
  (value.text? "number").map fun number =>
    { number
      kind := (value.text? "type").getD ""
      disposition := (value.text? "disp").getD ""
      enabled := ((value.text? "enabled").map (· == "y")).getD true
      addr := value.text? "addr"
      func := value.text? "func"
      file := value.text? "file"
      fullname := value.text? "fullname"
      line := value.word? "line"
      times := (value.word? "times").getD 0
      originalLocation := value.text? "original-location" }

end DebugBridge
