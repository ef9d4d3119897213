import DebugBridge.Proofs.Interleaving
import DebugBridge.Session.Router

/-!
# What a listener hears

Events are published at any time, and handed on one by one to those who listen when it is their
turn.  Others come and go in between, channels are given up while an event is sent through them, and
the host shows stops or fails to.  To one listener all this makes no difference: it hears one
stretch of what was published, without a gap and in order, from what had not been handed on when it
came.

## Strategy

* Each listener has a channel of its own, through which every event is sent once (`IsWired`).  So
  sending an event through all channels adds it to what each listener has heard
  (`fanOut_subscribers`), whichever channels are given up on the way.
* A `View` is what a router is to one listener.  It changes only by the turns that concern this
  listener (`view_turn?`), so that runs that look alike to it look alike at their ends
  (`view_turns?`).

## Main statements

* `sendAll_snd`, `sendAll_fst`: what sending through channels one after the other comes to.
* `sendAll_leaving`: a listener may go in the middle of it.
* `exists_heard`: a listener hears what comes out of the queue while it stays.
* `heard_without_gap`: what a listener has heard, and what it will have heard.
-/

namespace DebugBridge.Session.Router

/-! ## Sending through channels -/

theorem send?_eq_some {event : Event} {channel : Nat} {subscribers after : List Subscriber}
    (h : send? event channel subscribers = some after) :
    after = subscribers.map fun s => if s.channel == channel then
      { s with received := s.received ++ [event] } else s := by
  unfold send? at h
  split at h
  · exact (Option.some.inj h).symm
  · cases h

theorem send?_eq_none {event : Event} {channel : Nat} {subscribers : List Subscriber}
    (h : send? event channel subscribers = none) : ∀ s ∈ subscribers, s.channel ≠ channel := by
  unfold send? at h
  split at h
  · cases h
  · rename_i hnobody
    simpa [isHeard] using hnobody

/-- A listener hears an event as often as it is sent through its channel. -/
theorem sendAll_snd (event : Event) (channels : List Nat) (subscribers : List Subscriber) :
    (sendAll event channels subscribers).2 = subscribers.map fun s =>
      { s with received := s.received ++ List.replicate (channels.count s.channel) event } := by
  induction channels generalizing subscribers with
  | nil => simp [sendAll]
  | cons channel rest ih =>
      unfold sendAll
      cases hsend : send? event channel subscribers with
      | some after =>
          rw [send?_eq_some hsend]
          show (sendAll event rest _).2 = _
          rw [ih, List.map_map]
          refine List.map_congr_left fun s _ => ?_
          by_cases hchannel : s.channel = channel
          · simp [hchannel, List.replicate_succ]
          · simp [hchannel, Ne.symm hchannel]
      | none =>
          show (sendAll event rest subscribers).2 = _
          rw [ih]
          refine List.map_congr_left fun s hs => ?_
          rw [List.count_cons_of_ne (send?_eq_none hsend s hs).symm]

/-- Who listens where is the same after an event was sent. -/
theorem isHeard_of_send? {event : Event} {channel : Nat} {subscribers after : List Subscriber}
    (h : send? event channel subscribers = some after) : isHeard after = isHeard subscribers := by
  funext other
  rw [send?_eq_some h, isHeard, List.any_map, isHeard]
  refine congrArg (List.any subscribers) (funext fun s => ?_)
  simp only [Function.comp_apply]
  split <;> rfl

/-- The channels are kept at whose other end somebody listens. -/
theorem sendAll_fst (event : Event) (channels : List Nat) (subscribers : List Subscriber) :
    (sendAll event channels subscribers).1 = channels.filter (isHeard subscribers) := by
  induction channels generalizing subscribers with
  | nil => rfl
  | cons channel rest ih =>
      unfold sendAll
      by_cases hheard : isHeard subscribers channel = true
      · obtain ⟨after, hsend⟩ : ∃ after, send? event channel subscribers = some after :=
          ⟨_, if_pos hheard⟩
        rw [hsend, List.filter_cons_of_pos hheard, ← isHeard_of_send? hsend]
        exact congrArg (channel :: ·) (ih after)
      · have hsend : send? event channel subscribers = none := if_neg hheard
        rw [hsend, List.filter_cons_of_neg hheard]
        exact ih subscribers

/-- Every event is sent once through the channel of each listener, and no channel is opened that is
there already. -/
structure IsWired (router : Router) : Prop where
  once : ∀ s ∈ router.subscribers, router.channels.count s.channel = 1
  lt_opened : ∀ channel ∈ router.channels, channel < router.opened

theorem fanOut_subscribers {router : Router} (h : router.IsWired) (event : Event) :
    (router.fanOut event).subscribers =
      router.subscribers.map fun s => { s with received := s.received ++ [event] } := by
  show (sendAll event router.channels router.subscribers).2 = _
  rw [sendAll_snd]
  refine List.map_congr_left fun s hs => ?_
  rw [h.once s hs]
  rfl

namespace IsWired

theorem new : IsWired {} :=
  ⟨by simp, by simp⟩

variable {router : Router}

theorem unsubscribe (h : router.IsWired) (name : String) : (router.unsubscribe name).IsWired where
  once s hs := h.once s (List.mem_filter.mp hs).1
  lt_opened := h.lt_opened

theorem subscribe (h : router.IsWired) (name : String) : (router.subscribe name).IsWired where
  once s hs := by
    show (router.channels ++ [router.opened]).count s.channel = 1
    have hfresh : router.opened ∉ router.channels := by
      intro hmem
      have hlt := h.lt_opened _ hmem
      omega
    rcases List.mem_append.mp hs with hs | hs
    · have honce := h.once s (List.mem_filter.mp hs).1
      have hmem : s.channel ∈ router.channels := List.count_pos_iff.mp (by omega)
      have hne : s.channel ≠ router.opened := fun heq => hfresh (heq ▸ hmem)
      rw [List.count_append, honce, List.count_singleton]
      simp [Ne.symm hne]
    · obtain rfl := List.mem_singleton.mp hs
      simp [List.count_eq_zero_of_not_mem hfresh]
  lt_opened channel hchannel := by
    show channel < router.opened + 1
    rcases List.mem_append.mp hchannel with hmem | hmem
    · have hlt := h.lt_opened channel hmem
      omega
    · obtain rfl := List.mem_singleton.mp hmem
      omega

theorem fanOut (h : router.IsWired) (event : Event) : (router.fanOut event).IsWired where
  once s hs := by
    rw [fanOut_subscribers h] at hs
    obtain ⟨earlier, hearlier, rfl⟩ := List.mem_map.mp hs
    show (sendAll event router.channels router.subscribers).1.count earlier.channel = 1
    have hheard : isHeard router.subscribers earlier.channel = true :=
      List.any_eq_true.mpr ⟨earlier, hearlier, by simp⟩
    rw [sendAll_fst, List.count_filter hheard]
    exact h.once earlier hearlier
  lt_opened channel hchannel := by
    have hkept : channel ∈ (sendAll event router.channels router.subscribers).1 := hchannel
    rw [sendAll_fst] at hkept
    exact h.lt_opened channel (List.mem_filter.mp hkept).1

theorem showStop (h : router.IsWired) (host : Host) (record : AsyncRecord) :
    (router.showStop host record).IsWired := by
  unfold Router.showStop
  split
  · exact h
  · exact ⟨h.once, h.lt_opened⟩

end IsWired

/-! ## Going while an event is sent -/

/-- Sending changes what was heard, and not who listens where. -/
theorem isHeard_sendAll (event : Event) (channels : List Nat) (subscribers : List Subscriber) :
    isHeard (sendAll event channels subscribers).2 = isHeard subscribers := by
  funext channel
  rw [sendAll_snd, isHeard, List.any_map]
  rfl

/-- Whether a listener goes has nothing to do with what came to it. -/
theorem leave_sendAll (name : String) (event : Event) (channels : List Nat)
    (subscribers : List Subscriber) :
    (sendAll event channels subscribers).2.filter (·.name != name) =
      (sendAll event channels (subscribers.filter (·.name != name))).2 := by
  rw [sendAll_snd, sendAll_snd]
  exact List.filter_map

/-- Who listens has heard the same when an event was sent in two parts. -/
theorem sendAll_sendAll_snd (event : Event) (first second : List Nat)
    (subscribers : List Subscriber) :
    (sendAll event second (sendAll event first subscribers).2).2 =
      (sendAll event (first ++ second) subscribers).2 := by
  rw [sendAll_snd, sendAll_snd, sendAll_snd, List.map_map]
  refine List.map_congr_left fun s _ => ?_
  simp [List.append_assoc]

/-- At the other channels the same listeners stay. -/
theorem isHeard_leave {subscribers : List Subscriber} {name : String} {channel other : Nat}
    (honly : ∀ s ∈ subscribers, s.name = name → s.channel = channel) (hother : other ≠ channel) :
    isHeard (subscribers.filter (·.name != name)) other = isHeard subscribers other := by
  rw [Bool.eq_iff_iff, isHeard, isHeard, List.any_eq_true, List.any_eq_true]
  constructor
  · rintro ⟨s, hs, hat⟩
    exact ⟨s, (List.mem_filter.mp hs).1, hat⟩
  · rintro ⟨s, hs, hat⟩
    refine ⟨s, List.mem_filter.mpr ⟨hs, ?_⟩, hat⟩
    have hne : s.name ≠ name := by
      intro hname
      exact hother ((beq_iff_eq.mp hat).symm.trans (honly s hs hname))
    simpa using hne

/-- Among channels without that of the listener the same are kept. -/
theorem filter_isHeard_leave {channels : List Nat} {subscribers : List Subscriber} {name : String}
    {channel : Nat} (honly : ∀ s ∈ subscribers, s.name = name → s.channel = channel)
    (hnot : channel ∉ channels) :
    channels.filter (isHeard (subscribers.filter (·.name != name))) =
      channels.filter (isHeard subscribers) :=
  List.filter_congr fun _ hmem => isHeard_leave honly fun heq => hnot (heq ▸ hmem)

/-- A listener that goes while an event is sent through the channels, one after the other, comes to
the same as one that has gone before, or that goes afterwards. -/
theorem sendAll_leaving (event : Event) {first second : List Nat} {subscribers : List Subscriber}
    {name : String} {channel : Nat}
    (honly : ∀ s ∈ subscribers, s.name = name → s.channel = channel) :
    let leave := List.filter fun s : Subscriber => s.name != name
    let begun := sendAll event first subscribers
    let ended := sendAll event second (leave begun.2)
    let whole := sendAll event (first ++ second) subscribers
    (channel ∉ first →
      (begun.1 ++ ended.1, ended.2) = sendAll event (first ++ second) (leave subscribers)) ∧
    (channel ∉ second → (begun.1 ++ ended.1, ended.2) = (whole.1, leave whole.2)) := by
  intro leave begun ended whole
  have hbegun : leave begun.2 = (sendAll event first (leave subscribers)).2 :=
    leave_sendAll name event first subscribers
  have hended : ended.2 = (sendAll event (first ++ second) (leave subscribers)).2 := by
    rw [← sendAll_sendAll_snd, ← hbegun]
  have hkept : begun.1 ++ ended.1 =
      first.filter (isHeard subscribers) ++ second.filter (isHeard (leave subscribers)) := by
    rw [show begun.1 = _ from sendAll_fst event first subscribers,
      show ended.1 = _ from sendAll_fst event second _, hbegun, isHeard_sendAll]
  constructor
  · intro hfirst
    refine Prod.ext ?_ hended
    show begun.1 ++ ended.1 = _
    rw [hkept, sendAll_fst event (first ++ second), List.filter_append,
      filter_isHeard_leave honly hfirst]
  · intro hsecond
    refine Prod.ext ?_ ?_
    · show begun.1 ++ ended.1 = _
      rw [hkept, show whole.1 = _ from sendAll_fst event _ _, List.filter_append,
        filter_isHeard_leave honly hsecond]
    · exact hended.trans (leave_sendAll name event _ subscribers).symm

/-! ## Runs -/

/-- What can come next in a run of a router.  An event is handed on in one turn, because who goes
meanwhile has gone before or goes afterwards (`sendAll_leaving`). -/
inductive Turn
  | publish (event : Event)
  | subscribe (name : String)
  | unsubscribe (name : String)
  /-- the next event is handed on, or the host is asked to show a stop, as the host is then -/
  | advance (host : Host)

/-- The router after one more turn, if that is possible. -/
def turn? (router : Router) : Turn → Option Router
  | .publish event => some (router.publish event)
  | .subscribe name => some (router.subscribe name)
  | .unsubscribe name => some (router.unsubscribe name)
  | .advance host => router.step? host

/-- The router after some more turns, if they are possible. -/
def turns? (router : Router) (turns : List Turn) : Option Router :=
  turns.foldlM turn? router

def Turn.event? : Turn → Option Event
  | publish event => some event
  | subscribe _ | unsubscribe _ | advance _ => none

/-- The events that are published, first to last. -/
def published (turns : List Turn) : List Event :=
  turns.filterMap Turn.event?

/-- What is next for a router that has something to do. -/
theorem step?_eq_some {host : Host} {router next : Router} (h : router.step? host = some next) :
    (∃ record, router.stop = some record ∧
      next = { router with stop := none }.showStop host record) ∨
    ∃ event rest, router.stop = none ∧ router.queue = event :: rest ∧
      next = { router.fanOut event with queue := rest, stop := stopOf? event } := by
  unfold step? at h
  split at h
  · rename_i record hstop
    exact .inl ⟨record, hstop, (Option.some.inj h).symm⟩
  · rename_i event rest hstop hqueue
    exact .inr ⟨event, rest, hstop, hqueue, (Option.some.inj h).symm⟩
  · cases h

theorem IsWired.turn {router next : Router} (h : router.IsWired) {turn : Turn}
    (hturn : router.turn? turn = some next) : next.IsWired := by
  cases turn with
  | publish event =>
      cases hturn
      exact ⟨h.once, h.lt_opened⟩
  | subscribe name =>
      cases hturn
      exact h.subscribe name
  | unsubscribe name =>
      cases hturn
      exact h.unsubscribe name
  | advance host =>
      rcases step?_eq_some hturn with ⟨record, -, rfl⟩ | ⟨event, rest, -, -, rfl⟩
      · have hwired : ({ router with stop := none } : Router).IsWired := ⟨h.once, h.lt_opened⟩
        exact hwired.showStop host record
      · have hwired := h.fanOut event
        exact ⟨hwired.once, hwired.lt_opened⟩

/-! ## What a router is to one listener -/

/-- What a router is to somebody who may listen. -/
structure View where
  /-- what was published and not yet handed on -/
  queue : List Event
  /-- the stop that the host is to show next, which comes before the next event -/
  stop : Option AsyncRecord
  /-- what has come to the listener, if it listens -/
  heard : Option (List Event)

/-- What a turn is to somebody who may listen. -/
inductive Glimpse
  | published (event : Event)
  | joined
  | left
  | advanced

/-- What a turn is to one listener: nothing, if only others come or go. -/
def Turn.glimpse? (name : String) : Turn → Option Glimpse
  | publish event => some (.published event)
  | subscribe other => if other = name then some .joined else none
  | unsubscribe other => if other = name then some .left else none
  | advance _ => some .advanced

def view (name : String) (router : Router) : View where
  queue := router.queue
  stop := router.stop
  heard := (router.subscribers.find? (·.name == name)).map Subscriber.received

namespace View

def step? (view : View) : Glimpse → Option View
  | .published event => some { view with queue := view.queue ++ [event] }
  | .joined => some { view with heard := some [] }
  | .left => some { view with heard := none }
  | .advanced =>
      match view.stop, view.queue with
      | some _, _ => some { view with stop := none }
      | none, event :: rest => some ⟨rest, stopOf? event, view.heard.map (· ++ [event])⟩
      | none, [] => none

def steps? (view : View) (glimpses : List Glimpse) : Option View :=
  glimpses.foldlM step? view

end View

section Views

variable {name other : String} {router next : Router}

@[simp]
theorem showStop_view (host : Host) (record : AsyncRecord) (router : Router) :
    (router.showStop host record).view name = router.view name := by
  unfold Router.showStop
  split <;> rfl

theorem received_eq (name : String) (router : Router) :
    router.received name = (router.view name).heard.getD [] :=
  rfl

/-- An event that is handed on comes to who listens. -/
theorem fanOut_heard (name : String) (h : router.IsWired) (event : Event) :
    ((router.fanOut event).view name).heard = (router.view name).heard.map (· ++ [event]) := by
  show ((router.fanOut event).subscribers.find? (·.name == name)).map Subscriber.received = _
  rw [fanOut_subscribers h, List.find?_map, Option.map_map]
  rw [view, Option.map_map]
  rfl

theorem find?_unsubscribe_self (name : String) (router : Router) :
    (router.unsubscribe name).subscribers.find? (·.name == name) = none := by
  refine List.find?_eq_none.mpr fun s hs => ?_
  simpa using (List.mem_filter.mp hs).2

theorem find?_unsubscribe_ne (hne : other ≠ name) (router : Router) :
    (router.unsubscribe other).subscribers.find? (·.name == name) =
      router.subscribers.find? (·.name == name) := by
  rw [Router.unsubscribe, List.find?_filter]
  refine congrArg (List.find? · router.subscribers) (funext fun s => ?_)
  by_cases hname : s.name = name
  · simp [hname, Ne.symm hne]
  · simp [hname]

theorem subscribe_heard_self (name : String) (router : Router) :
    ((router.subscribe name).view name).heard = some [] := by
  show (((router.unsubscribe name).subscribers ++ _).find? _).map Subscriber.received = _
  simp [List.find?_append, find?_unsubscribe_self]

theorem subscribe_heard_ne (hne : other ≠ name) (router : Router) :
    ((router.subscribe other).view name).heard = (router.view name).heard := by
  show (((router.unsubscribe other).subscribers ++ _).find? _).map Subscriber.received = _
  rw [List.find?_append, find?_unsubscribe_ne hne]
  simp [view, hne]

/-- To who listens, a router changes by the turns that concern this listener, and by no others. -/
theorem view_turn? (name : String) (h : router.IsWired) (turn : Turn) :
    (router.turn? turn).map (view name) =
      (turn.glimpse? name).elim (some (router.view name)) (router.view name).step? := by
  cases turn with
  | publish event => rfl
  | subscribe other =>
      show some ((router.subscribe other).view name) = _
      by_cases hother : other = name
      · subst hother
        rw [Turn.glimpse?, if_pos rfl]
        exact congrArg (fun heard => some (View.mk router.queue router.stop heard))
          (subscribe_heard_self other router)
      · rw [Turn.glimpse?, if_neg hother]
        exact congrArg (fun heard => some (View.mk router.queue router.stop heard))
          (subscribe_heard_ne hother router)
  | unsubscribe other =>
      show some ((router.unsubscribe other).view name) = _
      by_cases hother : other = name
      · subst hother
        rw [Turn.glimpse?, if_pos rfl]
        exact congrArg (fun found => some (View.mk router.queue router.stop (Option.map _ found)))
          (find?_unsubscribe_self other router)
      · rw [Turn.glimpse?, if_neg hother]
        exact congrArg (fun found => some (View.mk router.queue router.stop (Option.map _ found)))
          (find?_unsubscribe_ne hother router)
  | advance host =>
      show (router.step? host).map (view name) = (router.view name).step? .advanced
      cases hstop : router.stop with
      | some record =>
          have hshown : router.step? host =
              some ({ router with stop := none }.showStop host record) := by
            simp only [Router.step?, hstop]
          rw [hshown, Option.map_some, showStop_view]
          simp only [View.step?, view, hstop]
      | none =>
          cases hqueue : router.queue with
          | nil => simp [Router.step?, View.step?, view, hstop, hqueue]
          | cons event rest =>
              have hheard := fanOut_heard name h event
              simp only [Router.step?, View.step?, view, hstop, hqueue, Option.map_some]
              exact congrArg (fun heard => some (View.mk rest (stopOf? event) heard)) hheard

theorem IsWired.turns {turns : List Turn} (h : router.IsWired)
    (hturns : router.turns? turns = some next) : next.IsWired :=
  holds_of_foldlM hturns IsWired h fun _ hturn hnow => hnow.turn hturn

/-- What a run is to one listener is made of the turns that concern this listener. -/
theorem view_turns? (name : String) (h : router.IsWired) (turns : List Turn) :
    (router.turns? turns).map (view name) =
      (router.view name).steps? (turns.filterMap (Turn.glimpse? name)) := by
  induction turns generalizing router with
  | nil => rfl
  | cons turn rest ih =>
      have hview := view_turn? name h turn
      cases hglimpse : turn.glimpse? name with
      | none =>
          rw [hglimpse] at hview
          obtain ⟨middle, hturn, hsame⟩ := Option.map_eq_some_iff.mp hview
          rw [turns?, foldlM_cons_of_eq_some hturn, List.filterMap_cons_none hglimpse, ← hsame]
          exact ih (h.turn hturn)
      | some glimpse =>
          rw [hglimpse] at hview
          have hstep : (router.turn? turn).map (view name) = (router.view name).step? glimpse :=
            hview
          rw [List.filterMap_cons_some hglimpse, turns?, View.steps?, List.foldlM_cons,
            List.foldlM_cons, ← hstep]
          cases hturn : router.turn? turn with
          | none => rfl
          | some middle => exact ih (h.turn hturn)

end Views

/-! ## What one listener hears -/

def Glimpse.event? : Glimpse → Option Event
  | published event => some event
  | joined | left | advanced => none

/-- Who comes or goes does not change what is published. -/
theorem published_eq (name : String) (turns : List Turn) :
    published turns = (turns.filterMap (Turn.glimpse? name)).filterMap Glimpse.event? := by
  rw [published, List.filterMap_filterMap]
  refine congrArg (List.filterMap · turns) (funext fun turn => ?_)
  cases turn with
  | subscribe other | unsubscribe other =>
      simp only [Turn.glimpse?]
      split <;> rfl
  | publish | advance => rfl

/-- A listener stays. -/
def Glimpse.Keeps : Glimpse → Prop
  | joined | left => False
  | published _ | advanced => True

theorem Turn.keeps_of_glimpse? {name : String} {turn : Turn} {glimpse : Glimpse}
    (h : turn.glimpse? name = some glimpse)
    (hturn : turn ≠ .subscribe name ∧ turn ≠ .unsubscribe name) : glimpse.Keeps := by
  cases turn with
  | publish | advance =>
      cases h
      trivial
  | subscribe other =>
      obtain ⟨rfl, -⟩ := Option.ite_some_none_eq_some.mp h
      exact absurd rfl hturn.1
  | unsubscribe other =>
      obtain ⟨rfl, -⟩ := Option.ite_some_none_eq_some.mp h
      exact absurd rfl hturn.2

namespace View

variable {before after : View}

/-- What is handed on in one step is what the listener hears in it. -/
theorem step?_stretch {glimpse : Glimpse} (h : before.step? glimpse = some after) :
    ∃ handed, before.queue ++ glimpse.event?.toList = handed ++ after.queue ∧
      (glimpse.Keeps → after.heard = before.heard.map (· ++ handed)) := by
  cases glimpse with
  | published event =>
      cases h
      exact ⟨[], rfl, fun _ => by simp⟩
  | joined | left =>
      cases h
      exact ⟨[], by simp [Glimpse.event?], False.elim⟩
  | advanced =>
      simp only [step?] at h
      split at h
      · cases h
        exact ⟨[], by simp [Glimpse.event?], fun _ => by simp⟩
      · rename_i event rest _ hqueue
        cases h
        exact ⟨[event], by simp [Glimpse.event?, hqueue], fun _ => rfl⟩
      · cases h

/-- What is handed on in a run comes first in what was published, and a listener that stays hears
exactly that. -/
theorem steps?_stretch {glimpses : List Glimpse} (h : before.steps? glimpses = some after) :
    ∃ handed, before.queue ++ glimpses.filterMap Glimpse.event? = handed ++ after.queue ∧
      ((∀ glimpse ∈ glimpses, glimpse.Keeps) → after.heard = before.heard.map (· ++ handed)) := by
  induction glimpses generalizing before with
  | nil =>
      cases h
      exact ⟨[], by simp, fun _ => by simp⟩
  | cons glimpse rest ih =>
      obtain ⟨middle, hstep, hrest⟩ := foldlM_cons_eq_some h
      obtain ⟨first, hfirst, hheard⟩ := step?_stretch hstep
      obtain ⟨more, hmore, hheards⟩ := ih hrest
      refine ⟨first ++ more, ?_, fun hkeeps => ?_⟩
      · calc before.queue ++ (glimpse :: rest).filterMap Glimpse.event?
            = before.queue ++ glimpse.event?.toList ++ rest.filterMap Glimpse.event? := by
              rw [List.append_assoc, List.filterMap_cons]
              cases glimpse <;> rfl
          _ = first ++ (middle.queue ++ rest.filterMap Glimpse.event?) := by
              rw [hfirst, List.append_assoc]
          _ = first ++ more ++ after.queue := by rw [hmore, List.append_assoc]
      · obtain ⟨hkeep, hkeeps⟩ := List.forall_mem_cons.mp hkeeps
        rw [hheards hkeeps, hheard hkeep, Option.map_map]
        refine congrArg (Option.map · before.heard) (funext fun heard => ?_)
        simp

/-- Without a stop to show, everything in the queue is handed on in some steps. -/
private theorem exists_drained_of_idle (queue : List Event) (heard : Option (List Event)) :
    ∃ times, (View.mk queue none heard).steps? (List.replicate times .advanced) =
      some ⟨[], none, heard.map (· ++ queue)⟩ := by
  induction queue generalizing heard with
  | nil => exact ⟨0, by simp [steps?]⟩
  | cons event rest ih =>
      obtain ⟨times, hrest⟩ := ih (heard.map (· ++ [event]))
      have hheard :
          (heard.map (· ++ [event])).map (· ++ rest) = heard.map (· ++ event :: rest) := by
        rw [Option.map_map]
        refine congrArg (Option.map · heard) (funext fun heard => ?_)
        simp
      rw [hheard] at hrest
      -- a stop takes a step of its own
      cases hstop : stopOf? event with
      | none =>
          refine ⟨times + 1, ?_⟩
          show (View.mk rest (stopOf? event) _).steps? (List.replicate times .advanced) = _
          rw [hstop]
          exact hrest
      | some record =>
          refine ⟨times + 2, ?_⟩
          show (View.mk rest (stopOf? event) _).steps? (List.replicate (times + 1) .advanced) = _
          rw [hstop]
          exact hrest

/-- Everything in the queue is handed on in some steps. -/
theorem exists_drained (view : View) :
    ∃ times, view.steps? (List.replicate times .advanced) =
      some ⟨[], none, view.heard.map (· ++ view.queue)⟩ := by
  obtain ⟨queue, stop, heard⟩ := view
  obtain ⟨times, hdrained⟩ := exists_drained_of_idle queue heard
  cases stop with
  | none => exact ⟨times, hdrained⟩
  | some record => exact ⟨times + 1, hdrained⟩

end View

section Listeners

variable {name : String} {router next : Router}

/-- What was published comes out of the queue in the order in which it came in. -/
theorem exists_handed {turns : List Turn} (h : router.IsWired)
    (hturns : router.turns? turns = some next) :
    ∃ handed, router.queue ++ published turns = handed ++ next.queue := by
  -- to whom does not matter here
  have hview := view_turns? "" h turns
  rw [hturns] at hview
  obtain ⟨handed, hhanded, -⟩ := View.steps?_stretch hview.symm
  exact ⟨handed, by rw [published_eq ""]; exact hhanded⟩

/-- A listener that has stayed since it came has heard what has come out of the queue. -/
theorem exists_heard {after : List Turn} (h : router.IsWired)
    (hafter : router.turns? (.subscribe name :: after) = some next)
    (hstays : ∀ turn ∈ after, turn ≠ .subscribe name ∧ turn ≠ .unsubscribe name) :
    ∃ heard, (next.view name).heard = some heard ∧
      router.queue ++ published after = heard ++ next.queue := by
  have hjoined : (router.subscribe name).turns? after = some next := hafter
  have hview := view_turns? name (h.subscribe name) after
  rw [hjoined] at hview
  obtain ⟨heard, hheard, hkept⟩ := View.steps?_stretch hview.symm
  refine ⟨heard, ?_, by rw [published_eq name]; exact hheard⟩
  rw [hkept, subscribe_heard_self, Option.map_some, List.nil_append]
  intro glimpse hglimpse
  obtain ⟨turn, hmem, hturn⟩ := List.mem_filterMap.mp hglimpse
  exact Turn.keeps_of_glimpse? hturn (hstays turn hmem)

theorem filterMap_glimpse?_advance (name : String) (host : Host) (times : Nat) :
    (List.replicate times (Turn.advance host)).filterMap (Turn.glimpse? name) =
      List.replicate times .advanced := by
  simp [List.filterMap_replicate, Turn.glimpse?]

/-- When a router goes on for long enough, a listener hears everything in the queue. -/
theorem exists_emptied {heard : List Event} (h : router.IsWired)
    (hheard : (router.view name).heard = some heard) (host : Host) :
    ∃ times later, router.turns? (List.replicate times (.advance host)) = some later ∧
      later.queue = [] ∧ later.received name = heard ++ router.queue := by
  obtain ⟨times, hdrained⟩ := (router.view name).exists_drained
  have hview := view_turns? name h (List.replicate times (.advance host))
  rw [filterMap_glimpse?_advance, hdrained] at hview
  obtain ⟨later, hlater, hend⟩ := Option.map_eq_some_iff.mp hview
  refine ⟨times, later, hlater, congrArg View.queue hend, ?_⟩
  rw [received_eq, hend, hheard]
  rfl

/-- In runs that look alike to a listener it hears the same. -/
theorem received_of_alike {turns others : List Turn} (h : router.IsWired)
    (hturns : router.turns? turns = some next)
    (halike : others.filterMap (Turn.glimpse? name) = turns.filterMap (Turn.glimpse? name)) :
    ∃ other, router.turns? others = some other ∧ other.received name = next.received name := by
  have hview := view_turns? name h others
  rw [halike, ← view_turns? name h, hturns] at hview
  obtain ⟨other, hother, hend⟩ := Option.map_eq_some_iff.mp hview
  exact ⟨other, hother, by rw [received_eq, received_eq, hend]⟩

end Listeners

/-! ## Main result -/

/-- A listener that came at some moment of a run and has stayed has heard one stretch of what was
published: it begins with what had not been handed on when it came, and what comes after it has not
been handed on yet.  When the router goes on, whatever the host does, the listener hears all of the
rest.  What it has heard is the same in every run that differs in when others come and go, and in
what the host does. -/
theorem heard_without_gap (name : String) (before after : List Turn) (then_ now : Router)
    (hbefore : ({} : Router).turns? before = some then_)
    (hafter : then_.turns? (.subscribe name :: after) = some now)
    (hstays : ∀ turn ∈ after, turn ≠ .subscribe name ∧ turn ≠ .unsubscribe name) :
    (∃ handed, published before = handed ++ then_.queue ∧
      published (before ++ .subscribe name :: after) =
        handed ++ now.received name ++ now.queue) ∧
    (∀ host : Host, ∃ times later,
      now.turns? (List.replicate times (.advance host)) = some later ∧ later.queue = [] ∧
        later.received name = then_.queue ++ published after) ∧
    ∀ turns, turns.filterMap (Turn.glimpse? name) =
        (before ++ .subscribe name :: after).filterMap (Turn.glimpse? name) →
      ∃ other, ({} : Router).turns? turns = some other ∧
        other.received name = now.received name := by
  have hwired := IsWired.new.turns hbefore
  have hrun : ({} : Router).turns? (before ++ .subscribe name :: after) = some now :=
    (foldlM_append_of_eq_some hbefore).trans hafter
  obtain ⟨handed, hhanded⟩ := exists_handed IsWired.new hbefore
  obtain ⟨heard, hnow, hheard⟩ := exists_heard hwired hafter hstays
  have hreceived : now.received name = heard := by rw [received_eq, hnow, Option.getD_some]
  refine ⟨⟨handed, hhanded, ?_⟩, fun host => ?_, fun turns halike => ?_⟩
  · calc published (before ++ .subscribe name :: after)
        = published before ++ published after := by
          rw [published, List.filterMap_append, List.filterMap_cons_none rfl]
          rfl
      _ = handed ++ (then_.queue ++ published after) := by
          rw [show published before = handed ++ then_.queue from hhanded, List.append_assoc]
      _ = handed ++ now.received name ++ now.queue := by
          rw [hheard, hreceived, List.append_assoc]
  · rw [hheard]
    exact exists_emptied (IsWired.new.turns hrun) hnow host
  · exact received_of_alike IsWired.new hrun halike

/-- A listener comes after the first event and before it was handed on; another one goes while the
second is sent, and the host cannot show anything. -/
theorem heard_without_gap_of_late :
    let host : Host := ⟨fun _ => false, fun _ _ => none, fun _ _ _ => false⟩
    let before := [Turn.subscribe "first", .publish (.console "one")]
    let after := [Turn.advance host, .unsubscribe "first", .publish (.log "two"), .advance host]
    ∃ then_ now, ({} : Router).turns? before = some then_ ∧
      then_.turns? (.subscribe "late" :: after) = some now ∧
      now.received "late" = [.console "one", .log "two"] ∧
      ∃ handed, published before = handed ++ then_.queue ∧
        published (before ++ .subscribe "late" :: after) =
          handed ++ now.received "late" ++ now.queue := by
  intro host before after
  refine ⟨_, _, rfl, rfl, rfl, ?_⟩
  exact (heard_without_gap "late" before after _ _ rfl rfl (by simp [after])).1

end DebugBridge.Session.Router
