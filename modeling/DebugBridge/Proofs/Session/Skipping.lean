import DebugBridge.Proofs.Record.Skipping
import DebugBridge.Proofs.Session.Run

/-!
# Lines that are skipped

A reader takes a stream line by line, to its end or to a failure.  What the lines come to can be
said without the reader: the core after each line depends on the core before it, and the events of
each line on that line alone.  Lines that hold no record show up as output, and in nothing else that
a caller can see.

## Strategy

* What a reader does with a line is done alone (`run?_handleLine`), and so is the end of a stream
  (`run?_endOfStream`).  A reader that nobody disturbs drains its stream step by step
  (`drains_stream`).
* The gist of a core (`Core.gist`) is all of it but what is noted with every line.  What records and
  the end make of a core, they make of its gist, and a line without a record leaves the gist as it
  is (`gist_takeLine_of_skipped`), so that lines with and without skipped ones among them can be
  taken side by side (`Padded.gist_eq`).

## Main statements

* `drains_stream`: what a reader makes of a whole stream; it comes to no other place
  (`Drains.unique`).
* `skipped_lines_change_nothing`: lines without a record may be put in anywhere.
-/

namespace DebugBridge.Session

/-! ## What a line comes to -/

/-- The record on a line, if there is one. -/
def record? (line : String) : Option Record :=
  match Record.read line with
  | .ok record? => record?
  | .error _ => none

/-- The events on account of a record. -/
def recordEvents : Record → List Event
  | .result outcome =>
      if outcome.status = .error then [.log (outcome.message?.getD outcome.raw)] else []
  | .exec record => [.exec record]
  | .notify record => [.notify record]
  | .console text => [.console text]
  | .log text => [.log text]
  | .target text => [.target text]

/-- The events on account of a line: the line as it came, and then those of its record. -/
def lineEvents (line : String) : List Event :=
  .output line :: ((record? line).map recordEvents).getD []

/-- The core with a record taken into account. -/
def Core.takeRecord (core : Core) : Record → Core
  | .result outcome => (core.noteResult outcome).deliver outcome
  | .exec record => core.applyExec record
  | .console text => if announcesQuit text then core.setRunning false else core
  | .notify _ | .log _ | .target _ => core

/-- The core with a line taken into account. -/
def Core.takeLine (core : Core) (line : String) : Core :=
  (record? line).elim core.markHeard core.markHeard.takeRecord

theorem record?_eq_none_iff {line : String} : record? line = none ↔ Record.Skipped line := by
  rw [Record.skipped_iff, record?]
  cases Record.read line with
  | error failure => simp
  | ok record? => cases record? <;> simp

theorem record?_eq_some_iff {line : String} {record : Record} :
    record? line = some record ↔ Record.read line = .ok (some record) := by
  rw [record?]
  cases Record.read line with
  | error failure => simp
  | ok record? => simp

/-- A line that is skipped is noted and published, and that is all. -/
theorem handleLine_of_skipped {line : String} (h : Record.Skipped line) :
    handleLine line = (do perform .markHeard; publish (.output line)) := by
  have hnone := Record.skipped_iff.mp h
  unfold handleLine
  cases hread : Record.read line with
  | error failure => rfl
  | ok record? =>
      cases record? with
      | none => rfl
      | some record => exact absurd hread (hnone record)

/-- A state with another core, and with events published. -/
def State.turned (core : Core) (events : List Event) (state : State) : State :=
  { state with core, router := { state.router with queue := state.router.queue ++ events } }

theorem run?_handleRecord (record : Record) (state : State) :
    state.run? (handleRecord record) =
      some (state.turned (state.core.takeRecord record) (recordEvents record), ()) := by
  cases record with
  | result outcome =>
      simp only [handleRecord, recordEvents]
      split
      · rfl
      · simp [State.turned, handleResult]
        rfl
  | console text =>
      simp only [handleRecord, Core.takeRecord]
      split <;> rfl
  | exec | notify | log | target => rfl

/-- What a reader does with a line, when nobody disturbs it. -/
theorem run?_handleLine (line : String) (state : State) :
    state.run? (handleLine line) =
      some (state.turned (state.core.takeLine line) (lineEvents line), ()) := by
  have hnoted (rest : Activity Unit) :
      state.run? (do perform .markHeard; publish (.output line); rest) =
        (state.turned state.core.markHeard [.output line]).run? rest := rfl
  unfold Core.takeLine lineEvents
  cases hrecord : record? line with
  | none =>
      rw [handleLine_of_skipped (record?_eq_none_iff.mp hrecord)]
      rfl
  | some record =>
      unfold handleLine
      rw [record?_eq_some_iff.mp hrecord, hnoted, run?_handleRecord]
      simp [State.turned]

/-- The events at the end of a stream. -/
def endEvents (channel : Channel) (core : Core) : List Event :=
  if channel = .output ∧ core.isExited = false then [.exited] else []

/-- The core at the end of a stream. -/
def Core.endStream (channel : Channel) (core : Core) : Core :=
  match channel with
  | .output => core.markExited.1
  | .error => core

/-- What a reader does at the end of its stream, when nobody disturbs it. -/
theorem run?_endOfStream (channel : Channel) (state : State) :
    state.run? (endOfStream channel) =
      some (state.turned (state.core.endStream channel) (endEvents channel state.core), ()) := by
  cases channel with
  | error =>
      simp [endOfStream, State.turned, Core.endStream, endEvents]
      rfl
  | output =>
      show (({ state with core := state.core.markExited.1 } : State).run?
        (if state.core.markExited.2 then publish .exited else pure ())) = _
      unfold Core.endStream endEvents Core.markExited
      by_cases hexited : state.core.slot.exited = true
      · simp [hexited, Core.isExited, State.turned]
        rfl
      · simp [hexited, Core.isExited, State.turned]
        rfl

/-! ## Reading a stream to its end -/

/-- A session after some steps of a reader, if it can take them. -/
def reads? (channel : Channel) : Nat → Session → Option Session
  | 0, session => some session
  | steps + 1, session => (session.advanceReader? channel).bind (reads? channel steps)

/-- The steps of a reader lead from one session to another. -/
def Reads (channel : Channel) (session later : Session) : Prop :=
  ∃ steps, reads? channel steps session = some later

/-- A reader that nobody disturbs goes on until it has nothing more to do. -/
structure Drains (channel : Channel) (session later : Session) : Prop where
  reads : Reads channel session later
  rests : later.advanceReader? channel = none

section Reading

variable {channel : Channel} {session middle later : Session}

theorem Reads.refl (channel : Channel) (session : Session) : Reads channel session session :=
  ⟨0, rfl⟩

theorem Reads.step (h : session.advanceReader? channel = some middle)
    (hreads : Reads channel middle later) : Reads channel session later := by
  obtain ⟨steps, hsteps⟩ := hreads
  exact ⟨steps + 1, by rw [reads?, h]; exact hsteps⟩

theorem Reads.trans (hfirst : Reads channel session middle) (hsecond : Reads channel middle later) :
    Reads channel session later := by
  obtain ⟨steps, hsteps⟩ := hfirst
  induction steps generalizing session with
  | zero =>
      cases hsteps
      exact hsecond
  | succ steps ih =>
      obtain ⟨next, hnext, hrest⟩ := Option.bind_eq_some_iff.mp hsteps
      exact .step hnext (ih hrest)

/-- There is one place to which a reader comes. -/
theorem Drains.unique {other : Session} (h : Drains channel session later)
    (hother : Drains channel session other) : later = other := by
  obtain ⟨⟨steps, hsteps⟩, hrests⟩ := h
  obtain ⟨⟨others, hothers⟩, hrest⟩ := hother
  induction steps generalizing session others with
  | zero =>
      cases hsteps
      cases others with
      | zero => exact Option.some.inj hothers
      | succ others => simp [reads?, hrests] at hothers
  | succ steps ih =>
      obtain ⟨next, hnext, hgoing⟩ := Option.bind_eq_some_iff.mp hsteps
      cases others with
      | zero =>
          cases hothers
          rw [hrest] at hnext
          cases hnext
      | succ others =>
          rw [reads?, hnext] at hothers
          exact ih hgoing others hothers

/-- A reader that nobody disturbs gets through with what it is doing. -/
theorem reads_of_run? {task : Activity Unit} {state after : State}
    (hrun : state.run? task = some (after, ())) :
    Reads channel (session.withReader channel state task)
      (session.withReader channel after (.done ())) := by
  induction task generalizing state with
  | done value =>
      obtain rfl : state = after := congrArg Prod.fst (Option.some.inj hrun)
      exact .refl ..
  | act action next ih =>
      rw [State.run?] at hrun
      split at hrun
      · rename_i middle answer hperform
        refine .step ?_ (ih answer hrun)
        unfold Session.advanceReader?
        rw [readerTask_withReader, if_pos rfl, withReader_state]
        simp only [State.step?, hperform, Option.map_some]
        cases channel <;> rfl
      · cases hrun

end Reading

/-! ## Whole streams -/

/-- How a stream goes on behind some lines. -/
inductive StreamEnd
  /-- nothing was printed yet -/
  | quiet
  | closed
  /-- reading fails, whatever was printed behind that, and whether or not more will be -/
  | failure (reason : String) (behind : List Chunk) (ended : Bool)

/-- A stream with some lines to be read and this ending. -/
def StreamEnd.stream (lines : List String) : StreamEnd → Stream
  | .quiet => { pending := lines.map .line }
  | .closed => { pending := lines.map .line, closed := true }
  | .failure reason behind ended =>
      { pending := lines.map .line ++ .failure reason :: behind, closed := ended }

/-- Whether there is an end to be read. -/
def StreamEnd.isOver : StreamEnd → Bool
  | .quiet => false
  | .closed | .failure _ _ _ => true

/-- The stream behind the lines, with its end read if there is one. -/
def StreamEnd.left (ending : StreamEnd) : Stream :=
  { ending.stream [] with finished := ending.isOver }

/-- The core with a stream taken into account. -/
def Core.takeStream (core : Core) (channel : Channel) (lines : List String) (ending : StreamEnd) :
    Core :=
  if ending.isOver then (lines.foldl Core.takeLine core).endStream channel
  else lines.foldl Core.takeLine core

/-- The events on account of a stream. -/
def streamEvents (core : Core) (channel : Channel) (lines : List String) (ending : StreamEnd) :
    List Event :=
  lines.flatMap lineEvents ++
    if ending.isOver then endEvents channel (lines.foldl Core.takeLine core) else []

/-- A session in which a reader has read something of its stream and is through with it. -/
def through (channel : Channel) (left : Stream) (core : Core) (events : List Event)
    (session : Session) : Session :=
  session.withReader channel { session.state.turned core events with
    wire := session.state.wire.setStream channel left } (.done ())

section Streams

variable {channel : Channel} {session : Session} {ending : StreamEnd} {lines : List String}

theorem setStream_stream (wire : Wire) (channel : Channel) :
    wire.setStream channel (wire.stream channel) = wire := by
  cases channel <;> rfl

theorem through_self {left : Stream} (hidle : session.readerTask channel = .done ())
    (hleft : session.state.wire.stream channel = left) :
    through channel left session.state.core [] session = session := by
  subst hleft
  rw [through, setStream_stream, ← hidle]
  simp only [State.turned, List.append_nil]
  cases channel <;> rfl

theorem through_through (first second : Stream) (core after : Core) (events more : List Event)
    (session : Session) :
    through channel second after more (through channel first core events session) =
      through channel second after (events ++ more) session := by
  cases channel <;> simp [through, Session.withReader, State.turned, Wire.setStream]

theorem readerTask_through (left : Stream) (core : Core) (events : List Event) (session : Session) :
    (through channel left core events session).readerTask channel = .done () := by
  cases channel <;> rfl

theorem stream_through (left : Stream) (core : Core) (events : List Event) (session : Session) :
    (through channel left core events session).state.wire.stream channel = left := by
  cases channel <;> rfl

theorem connected_through (left : Stream) (core : Core) (events : List Event) (session : Session) :
    (through channel left core events session).state.wire.connected =
      session.state.wire.connected := by
  cases channel <;> rfl

theorem core_through (left : Stream) (core : Core) (events : List Event) (session : Session) :
    (through channel left core events session).state.core = core := by
  cases channel <;> rfl

theorem router_through (left : Stream) (core : Core) (events : List Event) (session : Session) :
    (through channel left core events session).state.router =
      { session.state.router with queue := session.state.router.queue ++ events } := by
  cases channel <;> rfl

/-- A reader that is through with its line reads on. -/
theorem reads_reading {left : Stream} {reading : Stream.Reading} {core : Core} {events : List Event}
    (hidle : session.readerTask channel = .done ())
    (hconnected : session.state.wire.connected = true)
    (hread : (session.state.wire.stream channel).read? = some (left, reading))
    (hrun : ∀ state : State, state.core = session.state.core →
      state.run? (handleReading channel reading) = some (state.turned core events, ())) :
    Reads channel session (through channel left core events session) := by
  refine .step ?_ (reads_of_run? (hrun
    { session.state with wire := session.state.wire.setStream channel left } rfl))
  unfold Session.advanceReader?
  simp only [hidle, hconnected, if_true, hread]
  cases channel <;> rfl

theorem StreamEnd.read?_cons (ending : StreamEnd) (line : String) (lines : List String) :
    (ending.stream (line :: lines)).read? = some (ending.stream lines, .line line) := by
  cases ending <;> rfl

theorem StreamEnd.read?_nil (h : ending.isOver = true) :
    (ending.stream []).read? = some (ending.left, .over) := by
  cases ending with
  | quiet => cases h
  | closed | failure => rfl

theorem StreamEnd.left_of_not_isOver (h : ending.isOver = false) :
    ending.left = ending.stream [] := by
  cases ending with
  | quiet => rfl
  | closed | failure => cases h

theorem StreamEnd.read?_left (ending : StreamEnd) : ending.left.read? = none := by
  cases ending <;> rfl

/-- A reader gets through all lines of a stream. -/
theorem reads_lines (hidle : session.readerTask channel = .done ())
    (hconnected : session.state.wire.connected = true)
    (hstream : session.state.wire.stream channel = ending.stream lines) :
    Reads channel session (through channel (ending.stream [])
      (lines.foldl Core.takeLine session.state.core) (lines.flatMap lineEvents) session) := by
  induction lines generalizing session with
  | nil =>
      rw [List.foldl_nil, List.flatMap_nil, through_self hidle hstream]
      exact .refl ..
  | cons line rest ih =>
      have hfirst : Reads channel session (through channel (ending.stream rest)
          (session.state.core.takeLine line) (lineEvents line) session) :=
        reads_reading hidle hconnected (hstream ▸ ending.read?_cons line rest)
          fun state hcore => hcore ▸ run?_handleLine line state
      have hrest := ih (readerTask_through ..) ((connected_through ..).trans hconnected)
        (stream_through (ending.stream rest) (session.state.core.takeLine line) (lineEvents line)
          session)
      rw [through_through, core_through] at hrest
      exact hfirst.trans hrest

/-- What a reader makes of a stream that it is about to read. -/
theorem drains_stream (hidle : session.readerTask channel = .done ())
    (hconnected : session.state.wire.connected = true)
    (hstream : session.state.wire.stream channel = ending.stream lines) :
    Drains channel session (through channel ending.left
      (session.state.core.takeStream channel lines ending)
      (streamEvents session.state.core channel lines ending) session) := by
  have hlines := reads_lines hidle hconnected hstream
  refine ⟨?_, ?_⟩
  · unfold Core.takeStream streamEvents
    cases hover : ending.isOver with
    | false => simpa [StreamEnd.left_of_not_isOver hover] using hlines
    | true =>
        let readLines := through channel (ending.stream [])
          (lines.foldl Core.takeLine session.state.core) (lines.flatMap lineEvents) session
        have hread : (readLines.state.wire.stream channel).read? = some (ending.left, .over) := by
          rw [stream_through, ending.read?_nil hover]
        have hend := reads_reading (readerTask_through ..) ((connected_through ..).trans hconnected)
          hread fun state hcore => hcore ▸ run?_endOfStream channel state
        rw [through_through, core_through] at hend
        rw [if_pos rfl, if_pos rfl]
        exact hlines.trans hend
  · unfold Session.advanceReader?
    rw [readerTask_through]
    simp [stream_through, ending.read?_left]

end Streams

/-! ## Lines that are skipped -/

/-- A core but for what is noted with every line: that there was one, and the signal to callers that
comes with the first. -/
def Core.gist (core : Core) : Core :=
  { core with execution := { core.execution with heard := false, silent := false } }

section Gist

variable {core other : Core}

theorem gist_markHeard (core : Core) : core.markHeard.gist = core.gist :=
  rfl

theorem gist_deliver (outcome : Outcome) (core : Core) :
    (core.deliver outcome).gist = (core.gist.deliver outcome).gist := by
  have hslot : core.gist.slot = core.slot := rfl
  unfold Core.deliver
  rw [hslot]
  split <;> rfl

theorem gist_markExited (core : Core) : core.markExited.1.gist = core.gist.markExited.1.gist := by
  have hslot : core.gist.slot = core.slot := rfl
  unfold Core.markExited
  rw [hslot]
  split <;> rfl

/-- Records are taken into account by what is in the gist of a core. -/
theorem gist_takeRecord (core : Core) (record : Record) :
    (core.takeRecord record).gist = (core.gist.takeRecord record).gist := by
  cases record with
  | result outcome => exact gist_deliver outcome (core.noteResult outcome)
  | console text =>
      simp only [Core.takeRecord]
      split <;> rfl
  | exec | notify | log | target => rfl

theorem gist_endStream (channel : Channel) (core : Core) :
    (core.endStream channel).gist = (core.gist.endStream channel).gist := by
  cases channel with
  | error => rfl
  | output => exact gist_markExited core

theorem gist_takeLine_congr (h : core.gist = other.gist) (line : String) :
    (core.takeLine line).gist = (other.takeLine line).gist := by
  unfold Core.takeLine
  cases record? line with
  | none => exact h
  | some record =>
      show (core.markHeard.takeRecord record).gist = (other.markHeard.takeRecord record).gist
      rw [gist_takeRecord, gist_markHeard, h, gist_takeRecord other.markHeard, gist_markHeard]

theorem gist_endStream_congr (h : core.gist = other.gist) (channel : Channel) :
    (core.endStream channel).gist = (other.endStream channel).gist := by
  rw [gist_endStream, h, ← gist_endStream]

/-- A line that is skipped changes nothing but what is noted with every line. -/
theorem gist_takeLine_of_skipped {line : String} (hline : Record.Skipped line) (core : Core) :
    (core.takeLine line).gist = core.gist := by
  rw [Core.takeLine, record?_eq_none_iff.mpr hline]
  rfl

/-- Records leave alone whether the debugger has printed anything, and whether the session has
ended. -/
theorem heard_isExited_takeRecord (core : Core) (record : Record) :
    (core.takeRecord record).execution.heard = core.execution.heard ∧
      (core.takeRecord record).isExited = core.isExited := by
  cases record with
  | result outcome =>
      simp only [Core.takeRecord, Core.deliver]
      split <;> exact ⟨rfl, rfl⟩
  | console text =>
      simp only [Core.takeRecord]
      split <;> exact ⟨rfl, rfl⟩
  | exec | notify | log | target => exact ⟨rfl, rfl⟩

theorem heard_isExited_takeLine (core : Core) (line : String) :
    (core.takeLine line).execution.heard = true ∧
      (core.takeLine line).isExited = core.isExited := by
  unfold Core.takeLine
  cases record? line with
  | none => exact ⟨rfl, rfl⟩
  | some record =>
      obtain ⟨hheard, hexited⟩ := heard_isExited_takeRecord core.markHeard record
      exact ⟨hheard, hexited⟩

theorem heard_endStream (channel : Channel) (core : Core) :
    (core.endStream channel).execution.heard = core.execution.heard := by
  cases channel with
  | error => rfl
  | output =>
      show core.markExited.1.execution.heard = _
      unfold Core.markExited
      split <;> rfl

end Gist

/-- Some lines, and the same lines with skipped ones put in anywhere. -/
inductive Padded : List String → List String → Prop
  | nil : Padded [] []
  | keep {lines more : List String} (line : String) (h : Padded lines more) :
      Padded (line :: lines) (line :: more)
  | insert {lines more : List String} {line : String} (hline : Record.Skipped line)
      (h : Padded lines more) : Padded lines (line :: more)

/-- The raw line that an event holds. -/
def line? : Event → Option String
  | .output line => some line
  | _ => none

section Padding

variable {lines more : List String}

theorem Padded.gist_eq (h : Padded lines more) {core other : Core} (heq : core.gist = other.gist) :
    (lines.foldl Core.takeLine core).gist = (more.foldl Core.takeLine other).gist := by
  induction h generalizing core other with
  | nil => exact heq
  | keep line _ ih => exact ih (gist_takeLine_congr heq line)
  | insert hline _ ih => exact ih (heq.trans (gist_takeLine_of_skipped hline other).symm)

theorem Padded.events_eq (h : Padded lines more) :
    (more.flatMap lineEvents).filter (line? · = none) =
      (lines.flatMap lineEvents).filter (line? · = none) := by
  induction h with
  | nil => rfl
  | keep line _ ih => rw [List.flatMap_cons, List.flatMap_cons, List.filter_append, ih,
      List.filter_append]
  | insert hline _ ih =>
      rw [List.flatMap_cons, List.filter_append, ih, lineEvents, record?_eq_none_iff.mpr hline]
      rfl

/-- No record is published as a raw line. -/
theorem filterMap_recordEvents (record : Record) : (recordEvents record).filterMap line? = [] := by
  cases record with
  | result outcome =>
      simp only [recordEvents]
      split <;> rfl
  | exec | notify | console | log | target => rfl

theorem filterMap_lineEvents (line : String) : (lineEvents line).filterMap line? = [line] := by
  have hrecord : (((record? line).map recordEvents).getD []).filterMap line? = [] := by
    cases record? line with
    | none => rfl
    | some record => exact filterMap_recordEvents record
  exact congrArg (line :: ·) hrecord

/-- Each line is published once as it came. -/
theorem filterMap_flatMap_lineEvents (lines : List String) :
    (lines.flatMap lineEvents).filterMap line? = lines := by
  induction lines with
  | nil => rfl
  | cons line rest ih =>
      rw [List.flatMap_cons, List.filterMap_append, ih, filterMap_lineEvents]
      rfl

theorem heard_foldl_takeLine (lines : List String) (core : Core) :
    (lines.foldl Core.takeLine core).execution.heard =
      (core.execution.heard || !lines.isEmpty) := by
  induction lines generalizing core with
  | nil => simp
  | cons line rest ih =>
      rw [List.foldl_cons, ih, (heard_isExited_takeLine core line).1]
      simp

theorem isExited_foldl_takeLine (lines : List String) (core : Core) :
    (lines.foldl Core.takeLine core).isExited = core.isExited := by
  induction lines generalizing core with
  | nil => rfl
  | cons line rest ih => rw [List.foldl_cons, ih, (heard_isExited_takeLine core line).2]

end Padding

/-! ## Main result -/

section Main

variable {channel : Channel} {session : Session}

/-- A session with another stream to be read. -/
def fed (channel : Channel) (stream : Stream) (session : Session) : Session :=
  session.onWire (Wire.setStream channel stream)

/-- What a reader makes of a stream that is put before it. -/
theorem drains_fed (hidle : session.readerTask channel = .done ())
    (hconnected : session.state.wire.connected = true) (lines : List String) (ending : StreamEnd) :
    Drains channel (fed channel (ending.stream lines) session)
      (through channel ending.left (session.state.core.takeStream channel lines ending)
        (streamEvents session.state.core channel lines ending)
        (fed channel (ending.stream lines) session)) := by
  apply drains_stream
  · cases channel <;> exact hidle
  · cases channel <;> exact hconnected
  · cases channel <;> rfl

theorem streamEvents_eq (core : Core) (channel : Channel) (lines : List String)
    (ending : StreamEnd) :
    streamEvents core channel lines ending =
      lines.flatMap lineEvents ++ if ending.isOver then endEvents channel core else [] := by
  rw [streamEvents, endEvents, endEvents, isExited_foldl_takeLine]

theorem Padded.gist_takeStream {lines more : List String} (h : Padded lines more) (core : Core)
    (channel : Channel) (ending : StreamEnd) :
    (core.takeStream channel lines ending).gist = (core.takeStream channel more ending).gist := by
  unfold Core.takeStream
  split
  · exact gist_endStream_congr (h.gist_eq rfl) channel
  · exact h.gist_eq rfl

theorem heard_takeStream (core : Core) (channel : Channel) (lines : List String)
    (ending : StreamEnd) :
    (core.takeStream channel lines ending).execution.heard =
      (core.execution.heard || !lines.isEmpty) := by
  unfold Core.takeStream
  split
  · rw [heard_endStream, heard_foldl_takeLine]
  · exact heard_foldl_takeLine lines core

theorem line?_of_mem_endEvents {core : Core} {event : Event} (h : event ∈ endEvents channel core) :
    line? event = none := by
  unfold endEvents at h
  split at h
  · obtain rfl := List.mem_singleton.mp h
    rfl
  · cases h

/-- A reader that has come to an end reads nothing more, whatever is printed. -/
theorem advanceReader?_foldl_print (hidle : session.readerTask channel = .done ())
    (hfinished : (session.state.wire.stream channel).finished = true) (chunks : List Chunk) :
    (chunks.foldl (fun session chunk => session.print channel chunk) session).advanceReader?
      channel = none := by
  induction chunks generalizing session with
  | nil =>
      unfold Session.advanceReader?
      simp [hidle, Stream.read?, hfinished]
  | cons chunk rest ih =>
      apply ih
      · cases channel <;> exact hidle
      · cases channel <;>
          (unfold Session.print Session.onWire Stream.print
           dsimp only
           split <;> exact hfinished)

/-- **Lines without a record have no effect.**  A reader that nobody disturbs gets through any
stream.  When lines without a record are put in anywhere, the phase, the slot, and whether the
target executes and the session has ended, are at the end what they are without them, and so are the
events that hold no raw line.  Each line is published as it came, in order, and then the events of
its record.  Afterwards something has been printed if there was a line.

A failure ends a stream as its end does: on the stream of the output the session has ended then,
which is announced if it had not, and on the other one nothing changes.  What is printed behind it
is never read. -/
theorem skipped_lines_change_nothing (session : Session) (channel : Channel) (ending : StreamEnd)
    (lines more : List String) (hidle : session.readerTask channel = .done ())
    (hconnected : session.state.wire.connected = true) (hpadded : Padded lines more) :
    (∀ line, Record.Skipped line → handleLine line = do
      perform .markHeard
      publish (.output line)) ∧
    ∃ plain padded : Session,
      Drains channel (fed channel (ending.stream lines) session) plain ∧
      Drains channel (fed channel (ending.stream more) session) padded ∧
      (padded.state.core.phase = plain.state.core.phase ∧
        padded.state.core.isRunning = plain.state.core.isRunning ∧
        padded.state.core.isExited = plain.state.core.isExited ∧
        padded.state.core.slot = plain.state.core.slot) ∧
      (∃ news others : List Event,
        padded.state.router.queue = session.state.router.queue ++ news ∧
        plain.state.router.queue = session.state.router.queue ++ others ∧
        news.filter (line? · = none) = others.filter (line? · = none) ∧
        news.filterMap line? = more ∧
        news = more.flatMap (fun line =>
            .output line :: ((record? line).map recordEvents).getD []) ++
          if ending.isOver = true ∧ channel = .output ∧ session.state.core.isExited = false then
            [.exited] else []) ∧
      padded.state.core.execution.heard =
        (session.state.core.execution.heard || !more.isEmpty) ∧
      padded.state.core = (if ending.isOver = true ∧ channel = .output then
        (more.foldl Core.takeLine session.state.core).markExited.1
        else more.foldl Core.takeLine session.state.core) ∧
      (ending.isOver = true → ∀ chunks : List Chunk,
        (chunks.foldl (fun session chunk => session.print channel chunk) padded).advanceReader?
          channel = none) := by
  refine ⟨fun _ => handleLine_of_skipped, _, _, drains_fed hidle hconnected lines ending,
    drains_fed hidle hconnected more ending, ?_,
    ⟨streamEvents session.state.core channel more ending,
      streamEvents session.state.core channel lines ending, ?_, ?_, ?_, ?_, ?_⟩, ?_, ?_, ?_⟩
  · rw [core_through, core_through]
    have hgist := hpadded.gist_takeStream session.state.core channel ending
    exact ⟨congrArg (·.execution.phase) hgist.symm, congrArg (·.execution.running) hgist.symm,
      congrArg (·.slot.exited) hgist.symm, congrArg (·.slot) hgist.symm⟩
  · rw [router_through]
    cases channel <;> rfl
  · rw [router_through]
    cases channel <;> rfl
  · rw [streamEvents_eq, streamEvents_eq, List.filter_append, List.filter_append,
      hpadded.events_eq]
  · rw [streamEvents_eq, List.filterMap_append, filterMap_flatMap_lineEvents]
    split
    · rw [List.filterMap_eq_nil_iff.mpr fun _ => line?_of_mem_endEvents, List.append_nil]
    · exact List.append_nil more
  · rw [streamEvents_eq]
    refine congrArg (more.flatMap lineEvents ++ ·) ?_
    unfold endEvents
    cases ending.isOver <;> simp
  · rw [core_through, heard_takeStream]
  · rw [core_through]
    unfold Core.takeStream Core.endStream
    cases ending.isOver <;> cases channel <;> simp
  · intro hover chunks
    refine advanceReader?_foldl_print (readerTask_through ..) ?_ chunks
    rw [stream_through]
    exact hover

/-- A session that is starting reads that the target runs, among lines of every kind that is
skipped; then reading fails. -/
theorem skipped_lines_change_nothing_of_noise :
    let session : Session := { state :=
      { core := { execution := { phase := .starting } }, wire := { connected := true } } }
    let ending := StreamEnd.failure "broken pipe" [.line "^running"] false
    let lines := ["*running"]
    let more := ["", "(gdb) ", "*running", "Reading symbols...", "^oops", "*stopped,reason"]
    ∃ plain padded : Session,
      Drains .output (fed .output (ending.stream lines) session) plain ∧
      Drains .output (fed .output (ending.stream more) session) padded ∧
      padded.state.core.phase = plain.state.core.phase ∧ plain.state.core.phase = .exited ∧
      padded.state.core.slot = plain.state.core.slot ∧
      padded.state.router.queue = [.output "", .output "(gdb) ", .output "*running",
        .exec ⟨"running", .emptyTuple⟩, .output "Reading symbols...", .output "^oops",
        .output "*stopped,reason", .exited] := by
  intro session ending lines more
  have hskipped (line : String) (hline : record? line = none) : Record.Skipped line :=
    record?_eq_none_iff.mp hline
  have hpadded : Padded lines more :=
    .insert (hskipped "" (by decide)) <| .insert (hskipped "(gdb) " (by decide)) <|
      .keep "*running" <| .insert (hskipped "Reading symbols..." (by decide)) <|
      .insert (hskipped "^oops" (by decide)) <|
      .insert (hskipped "*stopped,reason" (by decide)) .nil
  obtain ⟨-, plain, padded, hplain, hpads, ⟨hphase, -, -, hslot⟩,
    ⟨news, others, hnews, -, -, -, hevents⟩, -, hcore, -⟩ :=
    skipped_lines_change_nothing session .output ending lines more rfl rfl hpadded
  refine ⟨plain, padded, hplain, hpads, hphase, ?_, hslot, ?_⟩
  · rw [← hphase, hcore]
    decide
  · rw [hnews, hevents]
    decide

end Main

end DebugBridge.Session
