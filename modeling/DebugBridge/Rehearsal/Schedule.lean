import DebugBridge.Rehearsal.Stage

/-!
# The schedule of a rehearsal

A rehearsal goes by one fixed schedule, so that every run of it is the same:

* what can happen in the background comes first, then what debuggers do with a head start, then what
  callers can do;
* a caller that waits for the target to stop goes on before the others, which have further to go
  from the signal that wakes them all;
* only when all of them wait, a debugger performs its next item;
* only when no debugger has one, time passes, up to the earliest limit of a caller that waits.

A caller writes only when all debuggers have performed their items.  What was held back of replies
follows when the calls of the moment have returned, and is lost when the output has ended by then.
-/

namespace DebugBridge.Rehearsal.Stage

open Session (Machine)

variable {machine : Machine} {α : Type}

/-- A step in the background of a session. -/
def background? (stage : Stage machine α) (id : Nat) : Option (Stage machine α) :=
  let parties := [Session.Party.reader .output, .reader .error, .watcher, .router]
  (parties.map fun party => Bridge.Happening.on id (.advance party)).findSome? stage.happen? <|>
    stage.happen? (.forward id)

/-- The next step, as long as time stands still. -/
def step? (stage : Stage machine α) : Option (Stage machine α) :=
  let sessions := List.range stage.players.length
  let callers := List.range stage.since.length
  sessions.findSome? stage.background? <|>
    sessions.findSome? stage.greet? <|>
    (callers.filter stage.awaitsStop).findSome? stage.act? <|>
    callers.findSome? stage.act? <|>
    sessions.findSome? stage.play?

/-- Whether some callers have all returned. -/
def haveReturned (stage : Stage machine α) (callers : List Nat) : Bool :=
  callers.all fun caller => (stage.value? caller).isSome

/-- Goes on until nothing happens any more and some callers have returned, or the budget of steps is
used up. -/
def runWithin : (budget : Nat) → (callers : List Nat) → Stage machine α → Stage machine α
  | 0, _, stage => stage
  | budget + 1, callers, stage =>
      match stage.step? with
      | some next => runWithin budget callers next
      | none =>
          if stage.haveReturned callers then stage
          else match stage.wait? with
            | some next => runWithin budget callers next
            | none => stage

/-- A budget that no rehearsal of a few calls uses up. -/
def budget : Nat := 1000000

/-- Goes on until some callers have returned and nothing happens any more, even of what was held
back. -/
def await (callers : List Nat) (stage : Stage machine α) : Stage machine α :=
  (stage.runWithin budget callers).releaseHeld.runWithin budget []

/-- Calls a program and waits for its answer. -/
def call (program : Bridge.Activity α) (stage : Stage machine α) : Stage machine α × Option α :=
  let (stage, caller) := stage.enter program
  let stage := stage.await [caller]
  (stage, stage.value? caller)

end DebugBridge.Rehearsal.Stage
