import DebugBridge.Proofs.Session.Handover
import Mathlib.Data.List.Basic
import Mathlib.Data.List.Induction

/-!
# The answers of a debugger

A debugger may answer each line with one result record, in the order of the lines and however late.
Its answers come to the slot of the session in that order, none of them twice and none skipped.

## Strategy

For each stream, the records that were delivered of it, the one that its reader is about to deliver,
those that wait in it, and those that came too late are together the ones printed on it, first to
last (`Conveyed`).  Each turn preserves this; callers and the watcher deliver nothing.  A debugger
that answers lines does so on one stream only.

## Main statements

* `Lived.conveyed`: the invariant, whatever the debugger prints.
* `Lived.mem_answers`: what is delivered was printed.
* `Lived.deliveries_prefix`: what was delivered are the first answers.
* `Answering.length_answers_le`: there are no more answers than lines.
-/

namespace DebugBridge.Session

/-! ## Answers -/

/-- The result record on a line of output. -/
def answerOn? (text : String) : Option Outcome :=
  match Record.read text with
  | .ok (some (.result outcome)) => some outcome
  | _ => none

/-- The result record in a piece of output. -/
def Chunk.answer? : Chunk → Option Outcome
  | line text => answerOn? text
  | failure _ => none

/-- The result record that the debugger prints. -/
def Occurrence.answer? : Occurrence → Option Outcome
  | .printed _ chunk => chunk.answer?
  | _ => none

/-- The result records that the debugger has printed, first to last. -/
def answers (history : History) : List Outcome :=
  history.filterMap Occurrence.answer?

@[simp]
theorem answers_append (history more : History) :
    answers (history ++ more) = answers history ++ answers more := by
  simp [answers]

theorem answers_singleton (occurrence : Occurrence) :
    answers [occurrence] = occurrence.answer?.toList := by
  unfold answers
  cases h : occurrence.answer? <;> simp [h]

/-- A result record is printed on the output of the debugger, and only when fewer were printed than
lines written. -/
def Occurrence.Punctual (past : History) : Occurrence → Prop
  | .printed channel chunk => chunk.answer?.isSome →
      channel = .output ∧ (answers past).length < (written past).length
  | _ => True

instance (past : History) : (occurrence : Occurrence) → Decidable (occurrence.Punctual past)
  | .printed _ _ => inferInstanceAs (Decidable (_ → _))
  | .did _ _ => .isTrue trivial
  | .gaveUp _ _ => .isTrue trivial

/-- The debugger answers each line with one result record, in the order of the lines. -/
def Answering (history : History) : Prop :=
  ∀ k (hk : k < history.length), history[k].Punctual (history.take k)

instance (history : History) : Decidable (Answering history) :=
  inferInstanceAs (Decidable (∀ k (_ : k < history.length), _))

theorem answering_concat {history : History} {occurrence : Occurrence} :
    Answering (history ++ [occurrence]) ↔ Answering history ∧ occurrence.Punctual history := by
  constructor
  · intro h
    refine ⟨fun k hk => ?_, ?_⟩
    · have hpunctual := h k (by simp; omega)
      rwa [List.getElem_append_left hk, List.take_append_of_le_length (Nat.le_of_lt hk)]
        at hpunctual
    · simpa using h history.length (by simp)
  · rintro ⟨hbefore, hlast⟩ k hk
    obtain hlt | rfl : k < history.length ∨ k = history.length := by
      simp at hk
      omega
    · rw [List.getElem_append_left hlt, List.take_append_of_le_length (Nat.le_of_lt hlt)]
      exact hbefore k hlt
    · simpa using hlast

theorem Answering.take {history : History} (h : Answering history) (count : Nat) :
    Answering (history.take count) := by
  intro k hk
  have hlt : k < count ∧ k < history.length := by
    simp at hk
    omega
  have hpunctual := h k hlt.2
  rwa [List.getElem_take, List.take_take, Nat.min_eq_left (Nat.le_of_lt hlt.1)]

theorem length_answers_concat_le {history : History} {occurrence : Occurrence}
    (hpunctual : occurrence.Punctual history)
    (hbefore : (answers history).length ≤ (written history).length) :
    (answers (history ++ [occurrence])).length ≤ (written (history ++ [occurrence])).length := by
  rw [answers_append, answers_singleton, written_append, List.length_append, List.length_append]
  cases hanswer : occurrence.answer? with
  | none =>
      rw [Option.toList_none, List.length_nil]
      omega
  | some outcome =>
      have hlt : (answers history).length < (written history).length := by
        cases occurrence with
        | happened => exact (hpunctual (Option.isSome_of_eq_some hanswer)).2
        | did | gaveUp => cases hanswer
      rw [Option.toList_some, List.length_singleton]
      omega

/-- There are no more answers than lines. -/
theorem Answering.length_answers_le {history : History} (h : Answering history) :
    (answers history).length ≤ (written history).length := by
  induction history using List.reverseRecOn with
  | nil => exact Nat.le_refl 0
  | append_singleton history occurrence ih =>
      obtain ⟨hbefore, hpunctual⟩ := answering_concat.mp h
      exact length_answers_concat_le hpunctual (ih hbefore)

/-! ## What is on its way -/

/-- The result records that wait in a stream. -/
def Stream.answers (stream : Stream) : List Outcome :=
  stream.pending.filterMap Chunk.answer?

/-- The program delivers these records, whatever it is answered. -/
def Delivers {β : Type} : Activity β → List Outcome → Prop
  | .done _, outcomes => outcomes = []
  | .act action next, outcomes => ∃ rest, outcomes = action.delivery?.toList ++ rest ∧
      ∀ answer, Delivers (next answer) rest

theorem delivers_perform {β : Type} {action : Action} {next : action.Answer → Activity β}
    {outcomes : List Outcome} (haction : action.delivery? = none)
    (hnext : ∀ answer, Delivers (next answer) outcomes) :
    Delivers (perform action >>= next) outcomes :=
  ⟨outcomes, by simp [haction], hnext⟩

theorem delivers_act_nil {β : Type} {action : Action} {next : action.Answer → Activity β} :
    Delivers (.act action next) [] ↔
      action.delivery? = none ∧ ∀ answer, Delivers (next answer) [] := by
  constructor
  · rintro ⟨rest, hrest, hnext⟩
    obtain ⟨haction, rfl⟩ := List.append_eq_nil_iff.mp hrest.symm
    exact ⟨by simpa using haction, hnext⟩
  · rintro ⟨haction, hnext⟩
    exact ⟨[], by simp [haction], hnext⟩

theorem delivers_finish : Delivers finish [] := by
  apply delivers_perform rfl
  intro ended
  cases ended with
  | true => exact ⟨[], rfl, fun _ => rfl⟩
  | false => rfl

theorem delivers_handleResult (outcome : Outcome) :
    Delivers (handleResult outcome) [outcome] :=
  delivers_perform rfl fun _ => ⟨[], rfl, fun _ => rfl⟩

theorem delivers_handleRecord (record : Record) :
    Delivers (handleRecord record) (match record with
      | .result outcome => [outcome]
      | _ => []) := by
  cases record with
  | result outcome =>
      simp only [handleRecord]
      split
      · exact delivers_perform rfl fun _ => delivers_handleResult outcome
      · exact delivers_handleResult outcome
  | console text =>
      simp only [handleRecord]
      split
      · exact delivers_perform rfl fun _ => ⟨[], rfl, fun _ => rfl⟩
      · exact ⟨[], rfl, fun _ => rfl⟩
  | exec record => exact delivers_perform rfl fun _ => ⟨[], rfl, fun _ => rfl⟩
  | notify | log | target => exact ⟨[], rfl, fun _ => rfl⟩

theorem delivers_handleLine (text : String) :
    Delivers (handleLine text) (answerOn? text).toList := by
  refine delivers_perform rfl fun _ => delivers_perform rfl fun _ => ?_
  unfold answerOn?
  cases hread : Record.read text with
  | error failure => rfl
  | ok record =>
      cases record with
      | none => rfl
      | some record =>
          have hrecord := delivers_handleRecord record
          cases record <;> exact hrecord

/-- Reading a piece of a stream moves its answer from the stream to the reader. -/
theorem delivers_handleReading {stream next : Stream} {reading : Stream.Reading}
    (hread : stream.read? = some (next, reading)) (channel : Channel) :
    ∃ carried, Delivers (handleReading channel reading) carried ∧
      stream.answers = carried ++ next.answers ∧ next.closed = stream.closed := by
  have hover : Delivers (endOfStream channel) [] := by
    cases channel with
    | output => exact delivers_finish
    | error => rfl
  unfold Stream.read? at hread
  split at hread
  · cases hread
  · split at hread
    · rename_i text rest hpending
      cases hread
      refine ⟨_, delivers_handleLine text, ?_, rfl⟩
      cases hanswer : answerOn? text <;>
        simp [Stream.answers, hpending, Chunk.answer?, hanswer]
    · cases hread
      exact ⟨[], hover, rfl, rfl⟩
    · split at hread <;> cases hread
      exact ⟨[], hover, rfl, rfl⟩

theorem Stream.answers_print (stream : Stream) (chunk : Chunk) :
    (stream.print chunk).answers =
      if stream.closed then stream.answers else stream.answers ++ chunk.answer?.toList := by
  unfold Stream.print
  split
  · rfl
  · cases hanswer : chunk.answer? <;> simp [Stream.answers, hanswer]

/-- What was delivered of a stream, what its reader is about to deliver, what waits in it and what
came too late are the records that were printed on it, first to last. -/
def Queued (task : Activity Unit) (stream : Stream) (delivered printed : List Outcome) : Prop :=
  ∃ carried lost, Delivers task carried ∧
    delivered ++ carried ++ stream.answers ++ lost = printed ∧ (stream.closed = false → lost = [])

namespace Queued

variable {task : Activity Unit} {stream : Stream} {delivered printed : List Outcome}

/-- What the reader does next, it was about to do. -/
theorem act {action : Action} {next : action.Answer → Activity Unit}
    (h : Queued (.act action next) stream delivered printed) (answer : action.Answer) :
    Queued (next answer) stream (delivered ++ action.delivery?.toList) printed := by
  obtain ⟨carried, lost, ⟨rest, rfl, hrest⟩, heq, hlost⟩ := h
  exact ⟨rest, lost, hrest answer, by simpa using heq, hlost⟩

/-- What the reader reads was waiting. -/
theorem read {next : Stream} {reading : Stream.Reading} {channel : Channel}
    (h : Queued (.done ()) stream delivered printed)
    (hread : stream.read? = some (next, reading)) :
    Queued (handleReading channel reading) next delivered printed := by
  obtain ⟨_, lost, rfl, heq, hlost⟩ := h
  obtain ⟨carried, hcarried, hqueue, hclosed⟩ := delivers_handleReading hread channel
  exact ⟨carried, lost, hcarried, by simpa [hqueue] using heq, hclosed ▸ hlost⟩

/-- What is printed waits behind everything else, or is lost when the stream is closed. -/
theorem print (h : Queued task stream delivered printed) (chunk : Chunk) :
    Queued task (stream.print chunk) delivered (printed ++ chunk.answer?.toList) := by
  obtain ⟨carried, lost, hdelivers, rfl, hlost⟩ := h
  have hqueue := stream.answers_print chunk
  cases hclosed : stream.closed with
  | true =>
      refine ⟨carried, lost ++ chunk.answer?.toList, hdelivers, by simp [hqueue, hclosed], ?_⟩
      intro hopen
      simp [Stream.print, hclosed] at hopen
  | false =>
      -- nothing is lost as long as the stream is open
      obtain rfl := hlost hclosed
      exact ⟨carried, [], hdelivers, by simp [hqueue, hclosed], fun _ => rfl⟩

theorem close (h : Queued task stream delivered printed) :
    Queued task stream.close delivered printed := by
  obtain ⟨carried, lost, hdelivers, heq, -⟩ := h
  exact ⟨carried, lost, hdelivers, heq, nofun⟩

end Queued

/-! ## The streams apart -/

/-- The result record that the reader of a stream delivers. -/
def Occurrence.deliveryOf? (channel : Channel) : Occurrence → Option Outcome
  | .did (.reader other) deed => if other = channel then deed.action.delivery? else none
  | _ => none

/-- The result records that the reader of a stream has delivered, first to last. -/
def deliveriesOf (channel : Channel) (history : History) : List Outcome :=
  history.filterMap (Occurrence.deliveryOf? channel)

/-- The result record that the debugger prints on a stream. -/
def Occurrence.answerOf? (channel : Channel) : Occurrence → Option Outcome
  | .printed other chunk => if other = channel then chunk.answer? else none
  | _ => none

/-- The result records that the debugger has printed on a stream, first to last. -/
def answersOf (channel : Channel) (history : History) : List Outcome :=
  history.filterMap (Occurrence.answerOf? channel)

theorem deliveriesOf_concat (channel : Channel) (history : History) (occurrence : Occurrence) :
    deliveriesOf channel (history ++ [occurrence]) =
      deliveriesOf channel history ++ (occurrence.deliveryOf? channel).toList := by
  cases h : occurrence.deliveryOf? channel <;> simp [deliveriesOf, h]

theorem answersOf_concat (channel : Channel) (history : History) (occurrence : Occurrence) :
    answersOf channel (history ++ [occurrence]) =
      answersOf channel history ++ (occurrence.answerOf? channel).toList := by
  cases h : occurrence.answerOf? channel <;> simp [answersOf, h]

theorem deliveryOf?_eq_none {occurrence : Occurrence} (h : occurrence.delivery? = none)
    (channel : Channel) : occurrence.deliveryOf? channel = none := by
  cases occurrence with
  | gaveUp | happened => rfl
  | did actor deed =>
      have hdeed : deed.action.delivery? = none := h
      cases actor <;> simp [Occurrence.deliveryOf?, hdeed]

/-- What is printed on a stream is printed. -/
theorem answer?_of_answerOf? {channel : Channel} {occurrence : Occurrence} {outcome : Outcome}
    (h : occurrence.answerOf? channel = some outcome) : occurrence.answer? = some outcome := by
  cases occurrence with
  | did | gaveUp => cases h
  | happened printing =>
      rw [Occurrence.answerOf?] at h
      split at h
      · exact h
      · cases h

/-! ## The invariant -/

/-- The readers deliver what was printed on their streams, and nobody else delivers anything. -/
structure Conveyed (session : Session) (history : History) : Prop where
  queued : ∀ channel, Queued (session.readerTask channel) (session.state.wire.stream channel)
    (deliveriesOf channel history) (answersOf channel history)
  watcher : Delivers session.watcherTask []
  readers : ∀ occurrence ∈ history, ∀ outcome ∈ occurrence.delivery?,
    ∃ channel, occurrence.deliveryOf? channel = some outcome

theorem Conveyed.concat {session next : Session} {history : History} {occurrence : Occurrence}
    (h : Conveyed session history)
    (hqueued : ∀ channel, Queued (next.readerTask channel) (next.state.wire.stream channel)
      (deliveriesOf channel history ++ (occurrence.deliveryOf? channel).toList)
      (answersOf channel history ++ (occurrence.answerOf? channel).toList))
    (hwatcher : Delivers next.watcherTask [])
    (hreaders : ∀ outcome ∈ occurrence.delivery?,
      ∃ channel, occurrence.deliveryOf? channel = some outcome) :
    Conveyed next (history ++ [occurrence]) where
  queued channel := by
    rw [deliveriesOf_concat, answersOf_concat]
    exact hqueued channel
  watcher := hwatcher
  readers other hmem := by
    rcases List.mem_append.mp hmem with hmem | hmem
    · exact h.readers other hmem
    · exact List.mem_singleton.mp hmem ▸ hreaders

/-- What is neither delivered nor printed leaves everything on its way. -/
theorem Conveyed.quiet {session next : Session} {history : History} {occurrence : Occurrence}
    (h : Conveyed session history)
    (htasks : ∀ channel, next.readerTask channel = session.readerTask channel)
    (hstreams : ∀ channel, next.state.wire.stream channel = session.state.wire.stream channel)
    (hwatcher : Delivers next.watcherTask []) (hdelivery : occurrence.delivery? = none)
    (hdeliveryOf : (fun channel => occurrence.deliveryOf? channel) = fun _ => none)
    (hanswerOf : (fun channel => occurrence.answerOf? channel) = fun _ => none) :
    Conveyed next (history ++ [occurrence]) := by
  refine h.concat (fun channel => ?_) hwatcher (by simp [hdelivery])
  rw [htasks, hstreams, congrFun hdeliveryOf channel, congrFun hanswerOf channel]
  simpa using h.queued channel

theorem perform_stream {reaction : Option Fault} {action : Action} {state next : State}
    {answer : action.Answer} (h : state.perform reaction action = some (next, answer))
    (channel : Channel) : next.wire.stream channel = state.wire.stream channel := by
  obtain ⟨⟨written, interrupts, hwire⟩, -⟩ := perform_wire h
  rw [hwire]
  cases action with
  | launch =>
      cases reaction <;> cases channel <;> rfl
  | watchExit =>
      simp only [Action.onWire, Wire.watch]
      split <;> cases channel <;> rfl
  | _ => cases channel <;> rfl

theorem giveUp_stream {reaction : Option Fault} {action : Action} {state next : State}
    {answer : action.Answer} (h : state.giveUp reaction action = some (next, answer))
    (channel : Channel) : next.wire.stream channel = state.wire.stream channel := by
  obtain ⟨⟨written, interrupts, hwire⟩, -⟩ := giveUp_wire h
  rw [hwire]
  cases channel <;> rfl

theorem stream_setStream (wire : Wire) (channel other : Channel) (stream : Stream) :
    (wire.setStream channel stream).stream other =
      if channel = other then stream else wire.stream other := by
  cases channel <;> cases other <;> rfl

section Change

variable {host : Host} {ρ α : Type} {program : ρ → Activity α} {c next : Chronicle host ρ α}

/-- Whatever happens, the readers deliver what was printed, as long as no caller delivers. -/
theorem Conveyed.of_change (h : Conveyed c.session c.history) (hchange : Change program c next)
    (hcallers : ∀ occurrence n deed, next.history = c.history ++ [occurrence] →
      occurrence.deedOf? (.caller n) = some deed → deed.action.delivery? = none) :
    Conveyed next.session next.history := by
  cases hchange with
  | request | router => exact ⟨h.queued, h.watcher, h.readers⟩
  | act hcaller hperform =>
      -- callers deliver nothing
      have hdelivery := hcallers _ _ _ rfl (deedOf?_did ..)
      refine h.quiet (fun channel => rfl) (perform_stream hperform) h.watcher ?_ rfl rfl
      simpa [Occurrence.delivery?] using hdelivery
  | expire hcaller hwait hgiveUp =>
      exact h.quiet (fun channel => rfl) (giveUp_stream hgiveUp) h.watcher rfl rfl rfl
  | @reader channel action rest state answer htask hperform =>
      refine h.concat (fun other => ?_) ?_ fun outcome houtcome => ⟨channel, ?_⟩
      · have hqueued := h.queued other
        rw [Chronicle.session, withReader_state, readerTask_withReader, perform_stream hperform]
        by_cases hne : channel = other
        · subst hne
          rw [htask] at hqueued
          simpa [Occurrence.deliveryOf?, Occurrence.answerOf?] using hqueued.act answer
        · simpa [Occurrence.deliveryOf?, Occurrence.answerOf?, hne] using hqueued
      · cases channel <;> exact h.watcher
      · simpa [Occurrence.deliveryOf?, Occurrence.delivery?] using houtcome
  | @read channel stream reading htask hread =>
      refine ⟨fun other => ?_, ?_, h.readers⟩
      · have hqueued := h.queued other
        rw [Chronicle.session, withReader_state, readerTask_withReader, stream_setStream]
        by_cases hne : channel = other
        · subst hne
          rw [htask] at hqueued
          simpa using hqueued.read hread
        · simpa [hne] using hqueued
      · cases channel <;> exact h.watcher
  | @watcher action rest state answer htask hperform =>
      have hwatcher := h.watcher
      rw [htask, delivers_act_nil] at hwatcher
      refine h.quiet (fun channel => rfl) (perform_stream hperform) (hwatcher.2 answer) ?_ rfl rfl
      simpa [Occurrence.delivery?] using hwatcher.1
  | print channel chunk =>
      refine h.concat (fun other => ?_) h.watcher (by simp [Occurrence.delivery?])
      show Queued (c.session.readerTask other)
        ((c.session.state.wire.setStream channel _).stream other) _ _
      rw [stream_setStream]
      by_cases hne : channel = other
      · subst hne
        simpa [Occurrence.deliveryOf?, Occurrence.answerOf?] using (h.queued channel).print chunk
      · simpa [Occurrence.deliveryOf?, Occurrence.answerOf?, hne] using h.queued other
  | close channel =>
      refine ⟨fun other => ?_, h.watcher, h.readers⟩
      show Queued (c.session.readerTask other)
        ((c.session.state.wire.setStream channel _).stream other) _ _
      rw [stream_setStream]
      by_cases hne : channel = other
      · subst hne
        simpa using (h.queued channel).close
      · simpa [hne] using h.queued other
  | reportGone =>
      refine ⟨fun channel => ?_, ?_, h.readers⟩
      · have hstream : c.session.state.wire.reportGone.1.stream channel =
            c.session.state.wire.stream channel := by
          unfold Wire.reportGone
          split <;> cases channel <;> rfl
        exact hstream ▸ h.queued channel
      · show Delivers (if c.session.state.wire.reportGone.2 then _ else _) []
        split
        · exact delivers_finish
        · exact h.watcher

end Change

/-! ## Lives -/

section Lives

variable {session : Session} {history : History}

theorem Leg.Permits.delivery? {leg : Leg} {action : Action} (h : leg.Permits False action) :
    action.delivery? = none := by
  cases action with
  | deliver outcome => cases leg <;> exact h.elim
  | _ => rfl

/-- As long as no caller delivers, the readers deliver what was printed. -/
theorem Lived.conveyed (h : Lived False session history) : Conveyed session history := by
  induction h with
  | new h =>
      refine ⟨fun channel => ⟨[], [], h.readerTask channel ▸ rfl, ?_, fun _ => rfl⟩,
        h.watcherTask ▸ rfl, fun occurrence hmem => by cases hmem⟩
      rw [h.wire]
      cases channel <;> rfl
  | change h hchange hpermits ih =>
      exact ih.of_change hchange fun occurrence n deed hlast hdeed =>
        (hpermits occurrence n deed hlast hdeed).delivery?

/-- What is delivered was printed. -/
theorem Lived.mem_answers (h : Lived False session history) {outcome : Outcome}
    (hdelivered : outcome ∈ deliveries history) : outcome ∈ answers history := by
  obtain ⟨occurrence, hmem, houtcome⟩ := List.mem_filterMap.mp hdelivered
  obtain ⟨channel, hchannel⟩ := h.conveyed.readers occurrence hmem outcome houtcome
  obtain ⟨carried, lost, -, heq, -⟩ := h.conveyed.queued channel
  have hprinted : outcome ∈ answersOf channel history := by
    rw [← heq]
    simp only [List.mem_append]
    exact .inl (.inl (.inl (List.mem_filterMap.mpr ⟨occurrence, hmem, hchannel⟩)))
  obtain ⟨source, hsource, hanswer⟩ := List.mem_filterMap.mp hprinted
  exact List.mem_filterMap.mpr ⟨source, hsource, answer?_of_answerOf? hanswer⟩

/-- A debugger that answers lines prints result records only on its output. -/
theorem Answering.answerOf?_eq (h : Answering history) {occurrence : Occurrence}
    (hmem : occurrence ∈ history) : occurrence.answerOf? .output = occurrence.answer? ∧
      occurrence.answerOf? .error = none := by
  obtain ⟨k, hk, rfl⟩ := List.getElem_of_mem hmem
  have hpunctual := h k hk
  cases hget : history[k] with
  | did | gaveUp => exact ⟨rfl, rfl⟩
  | happened printing =>
      obtain ⟨channel, chunk⟩ := printing
      rw [hget] at hpunctual
      cases channel with
      | output => exact ⟨rfl, rfl⟩
      | error =>
          cases hanswer : chunk.answer? with
          | none => simp [Occurrence.answerOf?, Occurrence.answer?, hanswer]
          | some outcome => cases (hpunctual (by simp [hanswer])).1

/-- What was delivered are the first answers. -/
theorem Lived.deliveries_prefix (h : Lived False session history) (hanswering : Answering history) :
    deliveries history <+: answers history := by
  have hanswers : answersOf .output history = answers history :=
    List.filterMap_congr fun occurrence hmem => (hanswering.answerOf?_eq hmem).1
  have hnone : answersOf .error history = [] :=
    List.filterMap_eq_nil_iff.mpr fun occurrence hmem => (hanswering.answerOf?_eq hmem).2
  -- so the reader of the other stream has delivered nothing
  obtain ⟨carried, lost, -, herror, -⟩ := h.conveyed.queued .error
  have hnothing : deliveriesOf .error history = [] := by
    simp only [hnone, List.append_eq_nil_iff] at herror
    exact herror.1.1.1
  have hdeliveries : deliveries history = deliveriesOf .output history := by
    refine List.filterMap_congr fun occurrence hmem => ?_
    have herror := List.filterMap_eq_nil_iff.mp hnothing occurrence hmem
    cases hdelivery : occurrence.delivery? with
    | none => exact (deliveryOf?_eq_none hdelivery .output).symm
    | some outcome =>
        obtain ⟨channel, hchannel⟩ := h.conveyed.readers occurrence hmem outcome hdelivery
        cases channel with
        | output => exact hchannel.symm
        | error => rw [herror] at hchannel; cases hchannel
  obtain ⟨carried, lost, -, houtput, -⟩ := h.conveyed.queued .output
  rw [hdeliveries, ← hanswers, ← houtput, List.append_assoc, List.append_assoc]
  exact List.prefix_append ..

end Lives

section Runs

variable {host : Host} {plan : Plan} {c : Chronicle host Operation Reply}

/-- What was delivered in a run are the first answers. -/
theorem Possible.deliveries_prefix (h : Possible (Operation.program plan) c)
    (hanswering : Answering c.history) : deliveries c.history <+: answers c.history := by
  -- callers deliver nothing by their operations
  have hlived : Lived False c.session c.history :=
    h.lived fun r => ⟨_, r.conducts (fun _ _ => trivial) plan⟩
  exact hlived.deliveries_prefix hanswering

end Runs

end DebugBridge.Session
