import DebugBridge.Session.Parties

/-!
# The state of a bridge

A bridge has one place for a session, and the breakpoints that were set through it.  It keeps
every session it ever made; which of them is in the place decides what requests reach.  The events
of its sessions and the places to show are pushed to the host.
-/

namespace DebugBridge.Bridge

open Session (Plan Host Phase)

/-- Something pushed to the host. -/
inductive Push
  | event (event : Event)
  /-- a place to show in the editor -/
  | navigate (path : String) (line : Nat)
deriving DecidableEq, Repr

structure Member where
  plan : Plan
  /-- the host of the session, if it is not the bridge -/
  host : Option Host
  session : Session := {}
  /-- how many of its events were pushed to the host -/
  forwarded : Nat := 0

/-- The name under which a bridge listens to its sessions. -/
def listener : String := "host"

/-- A new session, to which the bridge listens. -/
def Member.create (plan : Plan) (host : Option Host) : Member :=
  { plan, host, session := { state := { router := ({} : Session.Router).subscribe listener } } }

structure State where
  /-- all sessions, by their number -/
  members : List Member := []
  /-- the number of the session that requests reach -/
  place : Option Nat := none
  /-- the breakpoints that were set, latest first -/
  breakpoints : List Breakpoint := []
  /-- what was pushed to the host, first to last -/
  pushed : List Push := []

/-- A session as a request finds it. -/
structure Tenant where
  id : Nat
  plan : Plan
deriving DecidableEq, Repr

namespace State

def tenant? (state : State) : Option Tenant :=
  state.place.bind fun id => state.members[id]?.map fun member => ⟨id, member.plan⟩

def phase (state : State) (id : Nat) : Phase :=
  (state.members[id]?.map fun member => member.session.state.core.phase).getD .exited

def hasLive (state : State) : Bool :=
  match state.place with
  | some id => state.phase id != .exited
  | none => false

/-- The breakpoint that was set at a place. -/
def breakpointAt? (state : State) (file : String) (line : Nat) : Option Breakpoint :=
  state.breakpoints.find? (·.isAt file line)

/-- Adds a breakpoint, unless there is one at the same place. -/
def remember (breakpoint : Breakpoint) (state : State) : State :=
  if state.breakpoints.any (·.same breakpoint) then state
  else { state with breakpoints := breakpoint :: state.breakpoints }

/-- Drops the breakpoint at a place. -/
def forget (breakpoint : Breakpoint) (state : State) : State :=
  { state with breakpoints := state.breakpoints.filter (!·.same breakpoint) }

def onSession (id : Nat) (change : Session → Session) (state : State) : State :=
  { state with members := state.members.modify id fun m => { m with session := change m.session } }

/-- The state after something was done on a session. -/
def withSession {α : Type} (id : Nat) (action : Session → Option (Session × α)) (state : State) :
    Option (State × α) := do
  let member ← state.members[id]?
  let (session, answer) ← action member.session
  return (state.onSession id fun _ => session, answer)

/-- What a bridge does for its sessions as their host. -/
def host (isFile : String → Bool) (state : State) : Host where
  canOpen := isFile
  find := state.breakpointAt?
  shows := fun _ _ _ => true

/-- The places that a session has asked its bridge to show since an earlier moment. -/
def requests (earlier : Member) (now : Session) : List Push :=
  match earlier.host with
  | some _ => []
  | none =>
      (now.state.router.navigations.drop earlier.session.state.router.navigations.length).map
        fun navigation => .navigate navigation.path navigation.line

end State

end DebugBridge.Bridge
