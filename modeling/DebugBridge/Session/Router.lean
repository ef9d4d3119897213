import DebugBridge.Breakpoint
import DebugBridge.Event

/-!
# Distribution of events

Events are queued and handed on one after the other, so that who publishes never waits for who
listens.  Each event goes to every subscriber; a stop whose place in the sources can be shown is
then shown in the editor of the host.

A subscriber listens at one end of a channel of its own, and the router holds the other end.  When a
listener goes, the router is not told: it learns that nobody is there when it next sends something
through that channel, and gives the channel up.
-/

namespace DebugBridge.Session

/-- What a session asks of the program that embeds it. -/
structure Host where
  /-- whether a file can be shown -/
  canOpen : String → Bool
  /-- the breakpoint that the host knows at a place -/
  find : String → Nat → Option Breakpoint
  /-- whether the editor takes a request to show a place, given how many it has had before -/
  shows : Nat → String → Nat → Bool

/-- A request to show a place in the editor. -/
structure Navigation where
  path : String
  line : Nat
  /-- whether the editor took it -/
  taken : Bool
deriving DecidableEq, Repr

/-- A listener, with what has come through its channel. -/
structure Subscriber where
  name : String
  /-- the number of the channel at which it listens -/
  channel : Nat := 0
  received : List Event := []
deriving DecidableEq, Repr

/-- The distribution of the events of a session. -/
structure Router where
  /-- the events that were published and not yet handed on, first to last -/
  queue : List Event := []
  /-- those who listen -/
  subscribers : List Subscriber := []
  /-- the channels that events are sent through, in this order -/
  channels : List Nat := []
  /-- how many channels there have been so far -/
  opened : Nat := 0
  /-- the stop that was handed on and not yet shown -/
  stop : Option AsyncRecord := none
  /-- the breakpoint at the last stop that could be shown -/
  current : Option Breakpoint := none
  /-- the requests to the editor, first to last -/
  navigations : List Navigation := []
deriving DecidableEq, Repr, Inhabited

namespace Router

def publish (event : Event) (router : Router) : Router :=
  { router with queue := router.queue ++ [event] }

/-- A listener goes, and with it what has come to it. -/
def unsubscribe (name : String) (router : Router) : Router :=
  { router with subscribers := router.subscribers.filter (·.name != name) }

/-- Adds a listener at a new channel, in place of one of that name. -/
def subscribe (name : String) (router : Router) : Router :=
  { router with
    subscribers :=
      (router.unsubscribe name).subscribers ++ [{ name, channel := router.opened }]
    channels := router.channels ++ [router.opened]
    opened := router.opened + 1 }

def received (name : String) (router : Router) : List Event :=
  ((router.subscribers.find? (·.name == name)).map Subscriber.received).getD []

/-- Whether somebody listens at a channel. -/
def isHeard (subscribers : List Subscriber) (channel : Nat) : Bool :=
  subscribers.any (·.channel == channel)

/-- Sends an event through a channel, if somebody listens at its other end. -/
def send? (event : Event) (channel : Nat) (subscribers : List Subscriber) :
    Option (List Subscriber) :=
  if isHeard subscribers channel then
    some (subscribers.map fun s =>
      if s.channel == channel then { s with received := s.received ++ [event] } else s)
  else none

/-- Sends an event through channels one after the other.  Those are kept where that succeeds. -/
def sendAll (event : Event) :
    List Nat → List Subscriber → List Nat × List Subscriber
  | [], subscribers => ([], subscribers)
  | channel :: rest, subscribers =>
      match send? event channel subscribers with
      | some subscribers =>
          let (kept, subscribers) := sendAll event rest subscribers
          (channel :: kept, subscribers)
      | none => sendAll event rest subscribers

/-- Hands an event on to all who listen. -/
def fanOut (event : Event) (router : Router) : Router :=
  let (channels, subscribers) := sendAll event router.channels router.subscribers
  { router with channels, subscribers }

/-- The stop that an event announces. -/
def stopOf? : Event → Option AsyncRecord
  | .exec record => if record.isStop then some record else none
  | _ => none

/-- The place of a stop, if the host can show it. -/
def place? (host : Host) (record : AsyncRecord) : Option (String × Nat) :=
  (record.frame?.bind Frame.location?).filter fun place => host.canOpen place.1

/-- Shows a stop in the editor, and remembers the breakpoint there. -/
def showStop (host : Host) (record : AsyncRecord) (router : Router) : Router :=
  match place? host record with
  | none => router
  | some (path, line) =>
      { router with
        current := some ((host.find path line).getD ⟨path, line⟩)
        navigations := router.navigations ++
          [⟨path, line, host.shows router.navigations.length path line⟩] }

/-- The next thing to do: to show a stop that was handed on, else to hand on the next event. -/
def step? (host : Host) (router : Router) : Option Router :=
  match router.stop, router.queue with
  | some record, _ => some ({ router with stop := none }.showStop host record)
  | none, event :: rest =>
      some { router.fanOut event with queue := rest, stop := stopOf? event }
  | none, [] => none

end Router

end DebugBridge.Session
