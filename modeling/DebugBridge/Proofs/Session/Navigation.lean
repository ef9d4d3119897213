import DebugBridge.Proofs.Session.Distribution

/-!
# What the editor is asked to show

Of all that is published, the editor gets to see the stops whose place the host can show, each once
and in order.  Handing an event on and showing the stop in it are two turns, and anything can come
between them; and the host need not be the same for long, since files come and go and breakpoints
are set and cleared.

## Strategy

* A place that is shown comes from the whole record of a stop through three partial readings.
  `IsShowable` says what the record must hold, `showing?_eq_some` that this is exactly what makes
  the readings succeed.
* An event is over when it was handed on and, if it is a stop, the host was asked about it.
  `Passed` says what is left of events that are over, and `exists_passed_turn` that a turn leaves
  nothing else behind; a run follows by `Passed.trans`.
* A stop that is still to be shown is the last event that was handed on
  (`handedOn_of_stop`).

## Main statements

* `turn?_shows`: the editor and the last breakpoint change together, for a stop that can be shown.
* `exists_passed`: what a run has shown.
* `shows_showable_stops`: the whole of it, with what becomes of the stops that were not shown yet.
-/

namespace DebugBridge.Session

/-- The place that the editor was asked to show. -/
def Navigation.place (navigation : Navigation) : String × Nat :=
  (navigation.path, navigation.line)

namespace Router

/-! ## Stops that can be shown -/

/-- An event says that the target stopped, in a frame with a full path and a line of the sources
that the host can show. -/
def IsShowable (host : Host) (event : Event) (path : String) (line : Nat) : Prop :=
  ∃ payload fields numeral, event = .exec ⟨"stopped", payload⟩ ∧
    payload.get? "frame" = some (.tuple fields) ∧
    Value.Entries.find? "fullname" fields = some (.text path) ∧ path ≠ "" ∧
    Value.Entries.find? "line" fields = some (.text numeral) ∧
    Text.readWord32 numeral = some line ∧ host.canOpen path = true

/-- What a host is asked to show on account of an event. -/
def showing? (host : Host) (event : Event) : Option (String × Nat) :=
  (stopOf? event).bind (place? host)

/-- The breakpoint that is remembered on account of an event. -/
def breakpoint? (host : Host) (event : Event) : Option Breakpoint :=
  (showing? host event).map fun place => (host.find place.1 place.2).getD ⟨place.1, place.2⟩

theorem stopOf?_eq_some {event : Event} {record : AsyncRecord} :
    stopOf? event = some record ↔ event = .exec record ∧ record.name = "stopped" := by
  cases event with
  | exec other =>
      simp only [stopOf?, AsyncRecord.isStop, beq_iff_eq, Option.ite_none_right_eq_some,
        Option.some.injEq, Event.exec.injEq]
      constructor
      · rintro ⟨hname, rfl⟩
        exact ⟨rfl, hname⟩
      · rintro ⟨rfl, hname⟩
        exact ⟨hname, rfl⟩
  | notify | console | log | target | output | commandSent | exited => simp [stopOf?]

theorem asText?_eq_some {value : Value} {content : String} :
    value.asText? = some content ↔ value = .text content := by
  cases value <;> simp [Value.asText?]

theorem location?_eq_some {frame : Frame} {path : String} {line : Nat} :
    frame.location? = some (path, line) ↔
      frame.fullname = some path ∧ path ≠ "" ∧ frame.line = some line := by
  unfold Frame.location?
  split
  · rename_i other number hpath hline
    rw [Option.ite_none_left_eq_some, String.isEmpty_iff, hpath, hline, Option.some.injEq,
      Prod.mk.injEq, Option.some.injEq, Option.some.injEq]
    constructor
    · rintro ⟨hne, rfl, rfl⟩
      exact ⟨rfl, hne, rfl⟩
    · rintro ⟨rfl, hne, rfl⟩
      exact ⟨hne, rfl, rfl⟩
  · rename_i hmissing
    constructor
    · intro h
      cases h
    · rintro ⟨hpath, -, hline⟩
      exact absurd hline (hmissing path line hpath)

/-- The place of a frame, by the fields of the tuple that describes it. -/
theorem location?_ofValue? {value : Value} {path : String} {line : Nat} :
    (Frame.ofValue? value).bind Frame.location? = some (path, line) ↔
      ∃ fields numeral, value = .tuple fields ∧
        Value.Entries.find? "fullname" fields = some (.text path) ∧ path ≠ "" ∧
        Value.Entries.find? "line" fields = some (.text numeral) ∧
        Text.readWord32 numeral = some line := by
  cases value with
  | text | list => simp [Frame.ofValue?, Value.asTuple?]
  | tuple fields =>
      simp only [Frame.ofValue?, Value.asTuple?, Option.map_some, Option.bind_some,
        location?_eq_some, Value.word?, Value.text?, Value.get?, Option.bind_eq_some_iff,
        asText?_eq_some, Value.tuple.injEq]
      constructor
      · rintro ⟨⟨_, hpath, rfl⟩, hne, numeral, ⟨_, hline, rfl⟩, hread⟩
        exact ⟨fields, numeral, rfl, hpath, hne, hline, hread⟩
      · rintro ⟨_, numeral, rfl, hpath, hne, hline, hread⟩
        exact ⟨⟨_, hpath, rfl⟩, hne, numeral, ⟨_, hline, rfl⟩, hread⟩

theorem place?_eq_some {host : Host} {record : AsyncRecord} {path : String} {line : Nat} :
    place? host record = some (path, line) ↔
      (∃ value, record.payload.get? "frame" = some value ∧
        (Frame.ofValue? value).bind Frame.location? = some (path, line)) ∧
      host.canOpen path = true := by
  rw [place?, Option.filter_eq_some_iff, AsyncRecord.frame?, Option.bind_assoc,
    Option.bind_eq_some_iff]

/-- A host is asked to show the stops that it can show, and nothing else. -/
theorem showing?_eq_some {host : Host} {event : Event} {path : String} {line : Nat} :
    showing? host event = some (path, line) ↔ IsShowable host event path line := by
  rw [showing?, Option.bind_eq_some_iff]
  simp only [stopOf?_eq_some, place?_eq_some]
  constructor
  · rintro ⟨⟨name, payload⟩, ⟨rfl, hname⟩, ⟨value, hframe, hplace⟩, hopens⟩
    obtain rfl : name = "stopped" := hname
    obtain ⟨fields, numeral, rfl, hpath, hne, hline, hread⟩ := location?_ofValue?.mp hplace
    exact ⟨payload, fields, numeral, rfl, hframe, hpath, hne, hline, hread, hopens⟩
  · rintro ⟨payload, fields, numeral, rfl, hframe, hpath, hne, hline, hread, hopens⟩
    refine ⟨_, ⟨rfl, rfl⟩, ⟨_, hframe, ?_⟩, hopens⟩
    exact location?_ofValue?.mpr ⟨fields, numeral, rfl, hpath, hne, hline, hread⟩

/-! ## Events that are over -/

/-- The host that is there at a turn, if one is asked. -/
def Turn.host? : Turn → Option Host
  | advance host => some host
  | publish _ | subscribe _ | unsubscribe _ => none

/-- The events that are not over: the stop that is to be shown next, and those that were not handed
on. -/
def unsettled (router : Router) : List Event :=
  (router.stop.map Event.exec).toList ++ router.queue

/-- Only stops wait to be shown. -/
def AwaitsStop (router : Router) : Prop :=
  ∀ record, router.stop = some record → stopOf? (.exec record) = some record

/-- What is left of events that are over, each with the host that was there when it was: the editor
was asked to show the stops among them that can be shown, and the breakpoint at the last one is
remembered. -/
structure Passed (before after : Router) (seen : List (Host × Event)) : Prop where
  navigations : after.navigations.map Navigation.place =
    before.navigations.map Navigation.place ++ seen.filterMap fun s => showing? s.1 s.2
  current : after.current =
    (seen.filterMap fun s => breakpoint? s.1 s.2).getLast?.or before.current

variable {router next : Router}

@[simp]
theorem showStop_stop (host : Host) (record : AsyncRecord) (router : Router) :
    (router.showStop host record).stop = router.stop := by
  unfold showStop
  split <;> rfl

@[simp]
theorem showStop_queue (host : Host) (record : AsyncRecord) (router : Router) :
    (router.showStop host record).queue = router.queue := by
  unfold showStop
  split <;> rfl

theorem Passed.of_eq (hnavigations : next.navigations = router.navigations)
    (hcurrent : next.current = router.current) : Passed router next [] :=
  ⟨by simp [hnavigations], by simp [hcurrent]⟩

theorem Passed.trans {middle : Router} {first second : List (Host × Event)}
    (hfirst : Passed router middle first) (hsecond : Passed middle next second) :
    Passed router next (first ++ second) where
  navigations := by
    rw [hsecond.navigations, hfirst.navigations, List.filterMap_append, List.append_assoc]
  current := by
    rw [hsecond.current, hfirst.current, List.filterMap_append, List.getLast?_append,
      Option.or_assoc]

/-- An event that is not shown leaves nothing behind. -/
theorem Passed.of_unshown {host : Host} {event : Event} (hnot : showing? host event = none)
    (hnavigations : next.navigations = router.navigations)
    (hcurrent : next.current = router.current) : Passed router next [(host, event)] :=
  ⟨by simp [hnot, hnavigations], by simp [breakpoint?, hnot, hcurrent]⟩

theorem passed_showStop {host : Host} {record : AsyncRecord} {event : Event}
    (hstop : stopOf? event = some record) :
    Passed router (router.showStop host record) [(host, event)] := by
  have hshowing : showing? host event = place? host record := by
    rw [showing?, hstop, Option.bind_some]
  unfold showStop
  split
  · rename_i hplace
    exact .of_unshown (hshowing.trans hplace) rfl rfl
  · rename_i path line hplace
    have hplace := hshowing.trans hplace
    exact ⟨by simp [hplace, Navigation.place], by simp [breakpoint?, hplace]⟩

/-- A turn settles at most one event, and leaves behind what that event leaves. -/
theorem exists_passed_turn {turn : Turn} (hawaits : router.AwaitsStop)
    (hturn : router.turn? turn = some next) :
    next.AwaitsStop ∧ ∃ seen, Passed router next seen ∧
      router.unsettled ++ turn.event?.toList = seen.map Prod.snd ++ next.unsettled ∧
      (seen.map Prod.fst).Sublist turn.host?.toList := by
  cases turn with
  | publish event =>
      cases hturn
      exact ⟨hawaits, [], .of_eq rfl rfl, by simp [unsettled, publish, Turn.event?], by simp⟩
  | subscribe name =>
      cases hturn
      exact ⟨hawaits, [], .of_eq rfl rfl, List.append_nil _, by simp⟩
  | unsubscribe name =>
      cases hturn
      exact ⟨hawaits, [], .of_eq rfl rfl, List.append_nil _, by simp⟩
  | advance host =>
      rcases step?_eq_some hturn with ⟨record, hstop, rfl⟩ | ⟨event, rest, hstop, hqueue, rfl⟩
      · have hpassed : Passed { router with stop := none }
            (({ router with stop := none } : Router).showStop host record) [(host, .exec record)] :=
          passed_showStop (hawaits record hstop)
        refine ⟨fun _ hsome => ?_, [(host, .exec record)],
          ⟨hpassed.navigations, hpassed.current⟩, ?_, ?_⟩
        · rw [showStop_stop] at hsome
          cases hsome
        · simp [unsettled, hstop, Turn.event?]
        · simp [Turn.host?]
      · cases hevent : stopOf? event with
        | none =>
            have hnot : showing? host event = none := by rw [showing?, hevent, Option.bind_none]
            refine ⟨nofun, [(host, event)], .of_unshown hnot rfl rfl, ?_, ?_⟩
            · simp [unsettled, hstop, hqueue, Turn.event?]
            · simp [Turn.host?]
        | some record =>
            obtain ⟨rfl, -⟩ := stopOf?_eq_some.mp hevent
            refine ⟨fun other hother => ?_, [], .of_eq rfl rfl, ?_, by simp⟩
            · obtain rfl : record = other := Option.some.inj hother
              exact hevent
            · simp [unsettled, hstop, hqueue, Turn.event?]

theorem awaitsStop_of_turns? {turns : List Turn} (hawaits : router.AwaitsStop)
    (hturns : router.turns? turns = some next) : next.AwaitsStop :=
  holds_of_foldlM hturns AwaitsStop hawaits fun _ hturn hnow => (exists_passed_turn hnow hturn).1

/-- What a run leaves behind is what the events leave that it has settled, in the order in which
they were published. -/
theorem exists_passed {turns : List Turn} (hawaits : router.AwaitsStop)
    (hturns : router.turns? turns = some next) :
    ∃ seen, Passed router next seen ∧
      router.unsettled ++ published turns = seen.map Prod.snd ++ next.unsettled ∧
      (seen.map Prod.fst).Sublist (turns.filterMap Turn.host?) := by
  induction turns generalizing router with
  | nil =>
      cases hturns
      exact ⟨[], .of_eq rfl rfl, List.append_nil _, by simp⟩
  | cons turn rest ih =>
      obtain ⟨middle, hturn, hrest⟩ := foldlM_cons_eq_some hturns
      obtain ⟨hmiddle, first, hfirst, hsettled, hhost⟩ := exists_passed_turn hawaits hturn
      obtain ⟨more, hmore, hsettle, hhosts⟩ := ih hmiddle hrest
      refine ⟨first ++ more, hfirst.trans hmore, ?_, ?_⟩
      · calc router.unsettled ++ published (turn :: rest)
            = router.unsettled ++ turn.event?.toList ++ published rest := by
              rw [List.append_assoc, published, List.filterMap_cons]
              cases turn.event? <;> rfl
          _ = first.map Prod.snd ++ (middle.unsettled ++ published rest) := by
              rw [hsettled, List.append_assoc]
          _ = (first ++ more).map Prod.snd ++ next.unsettled := by
              rw [hsettle, List.map_append, List.append_assoc]
      · have hsplit : (turn :: rest).filterMap Turn.host? =
            turn.host?.toList ++ rest.filterMap Turn.host? := by
          rw [List.filterMap_cons]
          cases turn.host? <;> rfl
        rw [hsplit, List.map_append]
        exact hhost.append hhosts

/-! ## One stop -/

/-- The last event that was handed on in a run is this one, to all who listened then. -/
def HandedOn (router : Router) (turns : List Turn) (event : Event) : Prop :=
  ∃ earlier host later before after, turns = earlier ++ .advance host :: later ∧
    router.turns? earlier = some before ∧ before.turn? (.advance host) = some after ∧
    before.queue = event :: after.queue ∧
    after.subscribers = before.subscribers.map (fun s =>
      { s with received := s.received ++ [event] }) ∧
    ∀ turn ∈ later, turn.host? = none

theorem HandedOn.cons {middle : Router} {turn : Turn} {turns : List Turn} {event : Event}
    (hturn : router.turn? turn = some middle) (h : HandedOn middle turns event) :
    HandedOn router (turn :: turns) event := by
  obtain ⟨earlier, host, later, before, after, rfl, hbefore, hhanded⟩ := h
  refine ⟨turn :: earlier, host, later, before, after, rfl, ?_, hhanded⟩
  exact (foldlM_cons_of_eq_some hturn).trans hbefore

/-- A stop that is to be shown was to be shown all the time, or is the last event that was handed
on. -/
theorem handedOn_of_stop {turns : List Turn} {record : AsyncRecord} (hwired : router.IsWired)
    (hturns : router.turns? turns = some next) (hstop : next.stop = some record) :
    (router.stop = some record ∧ ∀ turn ∈ turns, turn.host? = none) ∨
      HandedOn router turns (.exec record) := by
  induction turns generalizing router with
  | nil =>
      cases hturns
      exact .inl ⟨hstop, by simp⟩
  | cons turn rest ih =>
      obtain ⟨middle, hturn, hrest⟩ := foldlM_cons_eq_some hturns
      rcases ih (hwired.turn hturn) hrest with ⟨hmiddle, hnone⟩ | hhanded
      · cases turn with
        | publish | subscribe | unsubscribe =>
            cases hturn
            exact .inl ⟨hmiddle, List.forall_mem_cons.mpr ⟨rfl, hnone⟩⟩
        | advance host =>
            rcases step?_eq_some hturn with ⟨shown, -, rfl⟩ | ⟨event, queue, -, hqueue, rfl⟩
            · rw [showStop_stop] at hmiddle
              cases hmiddle
            · obtain ⟨rfl, -⟩ := stopOf?_eq_some.mp hmiddle
              exact .inr ⟨[], host, rest, router, _, rfl, rfl, hturn, hqueue,
                fanOut_subscribers hwired _, hnone⟩
      · exact .inr (hhanded.cons hturn)

/-- The editor is asked, and the last breakpoint changes, when the host is asked about a stop that
it can show; both change then. -/
theorem turn?_shows {turn : Turn} (hawaits : router.AwaitsStop)
    (hturn : router.turn? turn = some next)
    (hchanged : next.navigations ≠ router.navigations ∨ next.current ≠ router.current) :
    ∃ host record path line, turn = .advance host ∧ router.stop = some record ∧
      IsShowable host (.exec record) path line ∧
      next.navigations = router.navigations ++
        [⟨path, line, host.shows router.navigations.length path line⟩] ∧
      next.current = some ((host.find path line).getD ⟨path, line⟩) := by
  cases turn with
  | publish | subscribe | unsubscribe =>
      cases hturn
      exact absurd hchanged (by simp [publish, subscribe, unsubscribe])
  | advance host =>
      rcases step?_eq_some hturn with ⟨record, hstop, rfl⟩ | ⟨event, rest, -, -, rfl⟩
      · have hshowing : showing? host (.exec record) = place? host record := by
          rw [showing?, hawaits record hstop, Option.bind_some]
        unfold showStop at hchanged ⊢
        split at hchanged
        · exact absurd hchanged (by simp)
        · rename_i path line hplace
          exact ⟨host, record, path, line, rfl, hstop,
            showing?_eq_some.mp (hshowing.trans hplace), rfl, rfl⟩
      · exact absurd hchanged (by simp [fanOut])

/-- A router gets through all that was published, whatever the host does. -/
theorem exists_settled (router : Router) (hwired : router.IsWired) (host : Host) :
    ∃ times later, router.turns? (List.replicate times (.advance host)) = some later ∧
      later.unsettled = [] := by
  obtain ⟨times, hdrained⟩ := (router.view "").exists_drained
  have hview := view_turns? "" hwired (List.replicate times (.advance host))
  rw [filterMap_glimpse?_advance, hdrained] at hview
  obtain ⟨later, hlater, hend⟩ := Option.map_eq_some_iff.mp hview
  have hstop : later.stop = none := congrArg View.stop hend
  have hqueue : later.queue = [] := congrArg View.queue hend
  exact ⟨times, later, hlater, by rw [unsettled, hstop, hqueue]; rfl⟩

/-! ## Main result -/

/-- Of the events that were published, all were seen to but the stop that is to be shown next and
those that were not handed on.  For each that was seen to, in order, the editor was asked to show
its place if it is a stop that the host of that moment can show, and for no other; the breakpoint
that is remembered belongs to the last of these.  The editor is asked after the event was handed on
to all who listened then and before the next one is, and whether it does what it is asked for makes
no difference.  When the router goes on, it gets through all that was published. -/
theorem shows_showable_stops (turns : List Turn) (now : Router)
    (hturns : ({} : Router).turns? turns = some now) :
    (∃ seen : List (Host × Event),
      published turns = seen.map Prod.snd ++ now.unsettled ∧
      (seen.map Prod.fst).Sublist (turns.filterMap Turn.host?) ∧
      now.navigations.map Navigation.place = (seen.filterMap fun s => showing? s.1 s.2) ∧
      now.current = (seen.filterMap fun s => breakpoint? s.1 s.2).getLast?) ∧
    (∀ host event path line, showing? host event = some (path, line) ↔
      IsShowable host event path line) ∧
    (∀ turn next, now.turn? turn = some next →
      next.navigations ≠ now.navigations ∨ next.current ≠ now.current →
      ∃ host record path line, turn = .advance host ∧ now.stop = some record ∧
        IsShowable host (.exec record) path line ∧ HandedOn {} turns (.exec record) ∧
        next.navigations = now.navigations ++
          [⟨path, line, host.shows now.navigations.length path line⟩] ∧
        next.current = some ((host.find path line).getD ⟨path, line⟩)) ∧
    ∀ host : Host, ∃ times later,
      now.turns? (List.replicate times (.advance host)) = some later ∧ later.unsettled = [] := by
  have hawaits : ({} : Router).AwaitsStop := nofun
  have hawaited : now.AwaitsStop := awaitsStop_of_turns? hawaits hturns
  obtain ⟨seen, hpassed, hsettled, hhosts⟩ := exists_passed hawaits hturns
  refine ⟨⟨seen, hsettled, hhosts, hpassed.navigations, ?_⟩, fun _ _ _ _ => showing?_eq_some, ?_,
    exists_settled now (IsWired.new.turns hturns)⟩
  · rw [hpassed.current]
    exact Option.or_none
  · intro turn next hturn hchanged
    obtain ⟨host, record, path, line, rfl, hstop, hshowable, hnavigations, hcurrent⟩ :=
      turn?_shows hawaited hturn hchanged
    rcases handedOn_of_stop IsWired.new hturns hstop with ⟨hnone, -⟩ | hhanded
    · cases hnone
    · exact ⟨host, record, path, line, rfl, hstop, hshowable, hhanded, hnavigations, hcurrent⟩

/-- A listener hears of a stop, which the editor is then asked to show.  The second stop names a
line that is no number of at most 32 bits, and the third one a file that the host cannot show. -/
theorem shows_showable_stops_of_three :
    let host : Host := ⟨(· == "/src/main.c"), fun _ _ => none, fun _ _ _ => false⟩
    let stop := fun path line => Event.exec ⟨"stopped", .tuple [("frame",
      .tuple [("fullname", .text path), ("line", .text line)])]⟩
    let turns := Turn.subscribe "ide" :: [stop "/src/main.c" "7", stop "/src/main.c" "4294967296",
      stop "/usr/lib.c" "1"].map .publish ++ List.replicate 6 (.advance host)
    ∃ now, ({} : Router).turns? turns = some now ∧
      now.navigations = [⟨"/src/main.c", 7, false⟩] ∧ now.current = some ⟨"/src/main.c", 7⟩ ∧
      now.received "ide" = published turns ∧
      ∃ seen : List (Host × Event), published turns = seen.map Prod.snd ++ now.unsettled ∧
        (seen.map Prod.fst).Sublist (turns.filterMap Turn.host?) ∧
        now.navigations.map Navigation.place = (seen.filterMap fun s => showing? s.1 s.2) ∧
        now.current = (seen.filterMap fun s => breakpoint? s.1 s.2).getLast? := by
  intro host stop turns
  refine ⟨_, rfl, by decide, by decide, by decide, ?_⟩
  exact (shows_showable_stops turns _ rfl).1

end Router

end DebugBridge.Session
