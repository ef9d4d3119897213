import DebugBridge.Bridge.State

/-!
# Atomic actions on a bridge

What requests do to the state of a bridge without being interrupted, and what happens to it apart
from that.  The place of the session is changed under one lock: whether it is free is found out in
the same action that fills it.
-/

namespace DebugBridge.Bridge

open Session (Plan Phase)

/-- What became of a session that was to be put in place. -/
inductive Placement
  /-- another session is there, which has not ended -/
  | occupied
  /-- the session is in place, in this phase, instead of one that has ended -/
  | placed (phase : Phase) (replaced : Option Tenant)
deriving DecidableEq, Repr

inductive Action
  /-- whether a session is in place that has not ended -/
  | hasLiveSession
  | create (plan : Plan)
  /-- put a session in place, unless there is one that has not ended -/
  | place (id : Nat)
  /-- put a session in place, whatever is there; answers what was there -/
  | replace (id : Nat)
  | take
  | current
  /-- add a breakpoint to those that were set -/
  | remember (breakpoint : Breakpoint)
  /-- drop a breakpoint -/
  | forget (breakpoint : Breakpoint)
  | on (id : Nat) (action : Session.Action)
deriving DecidableEq, Repr

@[reducible]
def Action.Answer : Action → Type
  | hasLiveSession => Bool
  | create _ => Nat
  | place _ => Placement
  | replace _ | take | current => Option Tenant
  | remember _ | forget _ => Unit
  | on _ action => action.Answer

abbrev interface : Interface :=
  ⟨Action, Action.Answer⟩

/-- A program that serves a request. -/
abbrev Activity (α : Type) := Program interface α

/-- How long an action waits at most, in milliseconds. -/
def Action.limit? : Action → Option Nat
  | on _ action => action.limit?
  | _ => none

/-- Something that happens to a bridge without a request. -/
inductive Happening
  | on (id : Nat) (happening : Session.Happening)
  /-- the next event of a session is pushed to the host -/
  | forward (id : Nat)
  /-- a session is made elsewhere, with its host if that is not the bridge -/
  | adopt (plan : Plan) (host : Option Session.Host)

namespace State

/-- Performs an action, unless it has to wait. -/
def perform (reaction : Option Fault) : (action : Action) → State → Option (State × action.Answer)
  | .hasLiveSession, s => some (s, s.hasLive)
  | .create plan, s =>
      some ({ s with members := s.members ++ [.create plan none] }, s.members.length)
  | .place id, s =>
      if s.hasLive then some (s, .occupied)
      else some ({ s with place := some id }, .placed (s.phase id) s.tenant?)
  | .replace id, s => some ({ s with place := some id }, s.tenant?)
  | .take, s => some ({ s with place := none }, s.tenant?)
  | .current, s => some (s, s.tenant?)
  | .remember breakpoint, s => some (s.remember breakpoint, ())
  | .forget breakpoint, s => some (s.forget breakpoint, ())
  | .on id action, s =>
      s.withSession id fun session => session.withState (session.state.perform reaction action)

/-- Concludes an action that still has to wait when its time is over. -/
def giveUp (reaction : Option Fault) : (action : Action) → State → Option (State × action.Answer)
  | .on id action, s =>
      s.withSession id fun session => session.withState (session.state.giveUp reaction action)
  | _, _ => none

/-- Lets something happen, if it can. -/
def happen (isFile : String → Bool) : Happening → State → Option State
  | .on id happening, state => do
      let member ← state.members[id]?
      let session ← member.session.happen (member.host.getD (state.host isFile)) happening
      let next := state.onSession id fun _ => session
      return { next with pushed := state.pushed ++ requests member session }
  | .forward id, state => do
      let member ← state.members[id]?
      let event ← (member.session.state.router.received listener)[member.forwarded]?
      let members := state.members.modify id fun m => { m with forwarded := m.forwarded + 1 }
      return { state with members, pushed := state.pushed ++ [.event event] }
  | .adopt plan host, state =>
      some { state with members := state.members ++ [.create plan host] }

end State

/-- A bridge as what its requests share. -/
abbrev arena (isFile : String → Bool) : Arena interface where
  State := State
  perform := State.perform
  giveUp := State.giveUp
  Happening := Happening
  happen := State.happen isFile

end DebugBridge.Bridge
