import DebugBridge.Fault
import DebugBridge.Program
import DebugBridge.Session.Core
import DebugBridge.Session.Router
import DebugBridge.Session.Wire

/-!
# Atomic actions on a session

What the parties of a session do to its state without being interrupted, one lock at a time.

`perform` answers `none` for an action that has to wait.  An action that waits with a limit can be
concluded by `giveUp` when the time is over.  What the debugger and the operating system make of a
launch, a write or an interrupt is not up to the session: it comes in as a `reaction`, the fault
that they answer with, if any.
-/

namespace DebugBridge.Session

structure State where
  core : Core := {}
  /-- whether commands can be given -/
  commanded : Bool := false
  wire : Wire := {}
  router : Router := {}
deriving DecidableEq, Repr, Inhabited

inductive Action
  /-- begin the start of an idle session; answers whether it was idle -/
  | beginStart
  /-- end the start; answers whether nothing has changed the phase since it began -/
  | finishStart
  /-- end the session; answers whether it was still going on -/
  | markExited
  | phase
  | isExited
  | isRunning
  | currentBreakpoint
  /-- note that the debugger printed something -/
  | markHeard
  | setRunning (running : Bool)
  | applyExec (record : AsyncRecord)
  | noteResult (outcome : Outcome)
  | deliver (outcome : Outcome)
  | publish (event : Event)
  /-- start the debugger and connect to it; answers why that failed, if it did -/
  | launch
  /-- connect to a debugger that runs already -/
  | connect
  /-- ask to be told when the debugger is gone; answers whether it is gone already -/
  | watchExit
  /-- wait for the first line of output or the end of the session; answers whether there was a
  line -/
  | awaitOutput (limit : Nat)
  | enableCommands
  /-- forbid further commands; answers whether they were allowed -/
  | disableCommands
  | commandsEnabled
  /-- wait for the gate, for ever or up to a limit; answers whether it is held now -/
  | acquire (limit : Option Nat)
  | release
  /-- claim the target for a command; answers whether it was not executing -/
  | claimTarget
  /-- arm the slot; answers the ticket -/
  | arm
  | disarm
  /-- write a line to the debugger; answers why that failed, if it did -/
  | write (line : String)
  /-- wait for the result that a ticket stands for; `claimed` says whether the command has claimed
  the target -/
  | awaitResult (ticket limit : Nat) (claimed : Bool)
  /-- interrupt the target if it executes; `more` says whether an attempt is left -/
  | interrupt (more : Bool)
  /-- wait for the target to stop, and interrupt it again when it has not done so in time -/
  | settle (interval : Nat) (more : Bool)
  | closeInput
  | terminate
deriving DecidableEq, Repr

/-- What became of an attempt to stop the target. -/
inductive Attempt
  | notRunning
  | exited
  /-- an interrupt is on its way -/
  | sent
  /-- the interrupt failed -/
  | refused (fault : Fault)
  /-- no attempt is left -/
  | exhausted
deriving DecidableEq, Repr

@[reducible]
def Action.Answer : Action → Type
  | beginStart | finishStart | markExited | isExited | isRunning => Bool
  | phase => Phase
  | currentBreakpoint => Option Breakpoint
  | markHeard | setRunning _ | applyExec _ | noteResult _ | deliver _ | publish _ => Unit
  | launch => Option Fault
  | connect => Unit
  | watchExit | awaitOutput _ => Bool
  | enableCommands => Unit
  | disableCommands | commandsEnabled => Bool
  | acquire _ => Bool
  | release => Unit
  | claimTarget => Bool
  | arm => Nat
  | disarm => Unit
  | write _ => Option Fault
  | awaitResult _ _ _ => Outcome
  | interrupt _ | settle _ _ => Attempt
  | closeInput | terminate => Unit

abbrev interface : Interface :=
  ⟨Action, Action.Answer⟩

/-- A program of a party of a session. -/
abbrev Activity (α : Type) := Program interface α

/-- How long an action waits at most, in milliseconds; `none` if it does not wait or waits for
ever. -/
def Action.limit? : Action → Option Nat
  | awaitOutput limit | awaitResult _ limit _ | settle limit _ => some limit
  | acquire limit => limit
  | _ => none

namespace State

/-- The state with its core changed. -/
def onCore (change : Core → Core) (state : State) : State :=
  { state with core := change state.core }

/-- The state with its core changed by an operation that answers something. -/
def askCore {α : Type} (change : Core → Core × α) (state : State) : State × α :=
  ({ state with core := (change state.core).1 }, (change state.core).2)

/-- Interrupts the target if an attempt is left. -/
def attempt (reaction : Option Fault) (more : Bool) (state : State) : State × Attempt :=
  if more then
    ({ state with wire := { state.wire with interrupts := state.wire.interrupts + 1 } },
      (reaction.map Attempt.refused).getD .sent)
  else (state, .exhausted)

/-- Performs an action, unless it has to wait. -/
def perform (reaction : Option Fault) : (action : Action) → State → Option (State × action.Answer)
  | .beginStart, s => some (s.askCore Core.beginStart)
  | .finishStart, s => some (s.askCore Core.finishStart)
  | .markExited, s => some (s.askCore Core.markExited)
  | .phase, s => some (s, s.core.phase)
  | .isExited, s => some (s, s.core.isExited)
  | .isRunning, s => some (s, s.core.isRunning)
  | .currentBreakpoint, s => some (s, s.router.current)
  | .markHeard, s => some (s.onCore Core.markHeard, ())
  | .setRunning running, s => some (s.onCore (Core.setRunning running), ())
  | .applyExec record, s => some (s.onCore (Core.applyExec record), ())
  | .noteResult outcome, s => some (s.onCore (Core.noteResult outcome), ())
  | .deliver outcome, s => some (s.onCore (Core.deliver outcome), ())
  | .publish event, s => some ({ s with router := s.router.publish event }, ())
  | .launch, s =>
      match reaction with
      | some fault => some (s, some fault)
      | none => some ({ s with wire := { s.wire with connected := true } }, none)
  | .connect, s => some ({ s with wire := { s.wire with connected := true } }, ())
  | .watchExit, s => some ({ s with wire := s.wire.watch.1 }, s.wire.watch.2)
  | .awaitOutput _, s =>
      if s.core.execution.heard || s.core.phase == .exited then some (s, s.core.execution.heard)
      else none
  | .enableCommands, s => some ({ s with commanded := true }, ())
  | .disableCommands, s => some ({ s with commanded := false }, s.commanded)
  | .commandsEnabled, s => some (s, s.commanded)
  | .acquire _, s => s.core.acquire?.map fun core => ({ s with core }, true)
  | .release, s => some (s.onCore Core.release, ())
  | .claimTarget, s => some (s.askCore Core.claimTarget)
  | .arm, s => some (s.askCore Core.arm)
  | .disarm, s => some (s.onCore Core.disarm, ())
  | .write line, s =>
      match reaction with
      | some fault => some (s, some fault)
      | none =>
          some ({ s with wire := { s.wire with written := s.wire.written ++ [line] } }, none)
  | .awaitResult ticket _ _, s =>
      (s.core.collect? ticket).map fun (core, outcome) => ({ s with core }, outcome)
  | .interrupt more, s =>
      if s.core.isRunning then some (s.attempt reaction more) else some (s, .notRunning)
  | .settle _ _, s =>
      if s.core.phase = .exited then some (s, .exited)
      else if s.core.isAtRest then some (s, .notRunning) else none
  | .closeInput, s =>
      some ({ s with wire := { s.wire with inputsClosed := s.wire.inputsClosed + 1 } }, ())
  | .terminate, s =>
      some ({ s with wire := { s.wire with terminations := s.wire.terminations + 1 } }, ())

/-- Concludes an action that still has to wait when its time is over. -/
def giveUp (reaction : Option Fault) : (action : Action) → State → Option (State × action.Answer)
  | .awaitOutput _, s => some (s, false)
  | .acquire (some _), s => some (s, false)
  | .awaitResult _ _ claimed, s => some (s.onCore (Core.abandon claimed), .timedOut)
  | .settle _ more, s =>
      if s.core.isRunning then some (s.attempt reaction more) else some (s, .notRunning)
  | _, _ => none

end State

end DebugBridge.Session
