import DebugBridge.Proofs.Session.Standing

/-!
# The announcement of the end

Several parties may end a session: the reader of the output, the watcher of the process, and any
number of callers.  Whoever ends it while it goes on owes the announcement; the others find it ended
and say nothing.  Only a start that could not launch a debugger ends the session without a word, and
then there never was a debugger.

## Strategy

`Announced` lists where a session can be: it goes on, somebody is about to announce its end, its end
was announced once, or it ended silently without a debugger.  Each passage leads from one of these
places to another (`Announced.of_passage`).

## Main statements

* `Possible.announced`: a session is in one of these places.
* `exited_announced_once`: the end of a session that had a debugger is announced exactly once, when
  all the parties that may end it have finished, and never before it has ended.
-/

namespace DebugBridge.Session

/-! ## What was published -/

/-- The event that is published. -/
def Occurrence.event? : Occurrence → Option Event
  | .did _ ⟨.publish event, _⟩ => some event
  | _ => none

/-- The events that were published, first to last. -/
def published (history : History) : List Event :=
  history.filterMap Occurrence.event?

theorem published_concat (history : History) (occurrence : Occurrence) :
    published (history ++ [occurrence]) = published history ++ occurrence.event?.toList := by
  unfold published
  cases h : occurrence.event? <;> simp [h]

/-- How often the end of the session was announced. -/
def announcements (history : History) : Nat :=
  (published history).count .exited

theorem announcements_append (history more : History) :
    announcements (history ++ more) = announcements history + announcements more := by
  unfold announcements published
  rw [List.filterMap_append, List.count_append]

theorem event?_ne_exited {occurrence : Occurrence} (h : ¬ occurrence.IsMilestone) :
    occurrence.event? ≠ some .exited := by
  intro hevent
  unfold Occurrence.event? at hevent
  split at hevent
  · cases hevent
    exact h rfl
  · cases hevent

theorem event?_did_ne_exited {actor : Actor} {action : Action} {answer : action.Answer}
    (h : action ≠ .publish .exited) :
    Occurrence.event? (.did actor ⟨action, answer⟩) ≠ some .exited := by
  cases action with
  | publish event => exact fun hevent => h (congrArg _ (Option.some.inj hevent))
  | _ => simp [Occurrence.event?]

theorem announcements_concat {occurrence : Occurrence} (h : occurrence.event? ≠ some .exited)
    (history : History) : announcements (history ++ [occurrence]) = announcements history := by
  have hone : announcements [occurrence] = 0 := by
    rw [announcements, ← List.nil_append [occurrence], published_concat]
    cases hevent : occurrence.event? with
    | none => rfl
    | some event =>
        have hne : event ≠ .exited := fun heq => h (hevent.trans (congrArg some heq))
        simp [published, hne]
  rw [announcements_append, hone, Nat.add_zero]

theorem announcements_aside {history later : History} (hlater : later = history ∨
      ∃ occurrence : Occurrence, later = history ++ [occurrence] ∧ ¬ occurrence.IsMilestone) :
    announcements later = announcements history := by
  obtain rfl | ⟨occurrence, rfl, haside⟩ := hlater
  · rfl
  · exact announcements_concat (event?_ne_exited haside) history

/-! ## The invariant -/

/-- Whether an actor owes the announcement. -/
def Duty.Heralds (duty : Duty) : Prop :=
  ∃ opens, duty = .herald opens

theorem Duty.heralds_after {duty : Duty} {action : Action} (hpermits : duty.Permits action)
    (haction : action.IsMilestone) (hends : action ≠ .markExited) (htells : action ≠ .publish .exited)
    (answer : action.Answer) : (duty.after action answer).Heralds ↔ duty.Heralds := by
  have hfalse {left right : Duty} (hleft : ∀ opens, left ≠ .herald opens)
      (hright : ∀ opens, right ≠ .herald opens) : left.Heralds ↔ right.Heralds :=
    ⟨fun ⟨opens, heq⟩ => absurd heq (hleft opens), fun ⟨opens, heq⟩ => absurd heq (hright opens)⟩
  cases action with
  | markExited => exact absurd rfl hends
  | publish event =>
      obtain rfl : event = .exited := haction
      exact absurd rfl htells
  | beginStart | launch | disableCommands =>
      cases duty <;> first
        | exact absurd trivial hpermits
        | (cases answer <;> exact hfalse nofun nofun)
  | connect | watchExit | enableCommands | closeInput | terminate =>
      cases duty <;> first
        | exact absurd trivial hpermits
        | exact hfalse nofun nofun
  | _ => exact absurd haction id

/-- How far the announcement of the end has come. -/
inductive Announced (state : State) (history : History) : Prop
  /-- the session goes on -/
  | goingOn (hexited : state.core.isExited = false)
      (hheralds : ∀ actor, ¬ (dutyOf actor history).Heralds) (hcount : announcements history = 0)
  /-- somebody has ended the session and is about to say so -/
  | heralding (actor : Actor) (hexited : state.core.isExited = true)
      (hherald : (dutyOf actor history).Heralds)
      (hothers : ∀ other, actor ≠ other → ¬ (dutyOf other history).Heralds)
      (hcount : announcements history = 0)
  | told (hexited : state.core.isExited = true)
      (hheralds : ∀ actor, ¬ (dutyOf actor history).Heralds) (hcount : announcements history = 1)
  /-- the debugger could not be launched -/
  | silent (hexited : state.core.isExited = true)
      (hheralds : ∀ actor, ¬ (dutyOf actor history).Heralds) (hcount : announcements history = 0)
      (hshut : Shut state history) (hconnected : state.wire.connected = false)

namespace Announced

variable {state after : State} {history later : History} {actor : Actor}

/-- The announcement comes no further when nobody comes to owe it or ceases to. -/
theorem keep (h : Announced state history)
    (hduties : ∀ actor, (dutyOf actor later).Heralds ↔ (dutyOf actor history).Heralds)
    (hexited : after.core.isExited = state.core.isExited)
    (hcount : announcements later = announcements history)
    (hpassage : Passage state history after later) : Announced after later := by
  cases h with
  | goingOn hends hheralds hnone =>
      exact .goingOn (hexited.trans hends) (fun actor => mt (hduties actor).mp (hheralds actor))
        (hcount.trans hnone)
  | heralding actor hends hherald hothers hnone =>
      exact .heralding actor (hexited.trans hends) ((hduties actor).mpr hherald)
        (fun other hne => mt (hduties other).mp (hothers other hne)) (hcount.trans hnone)
  | told hends hheralds honce =>
      exact .told (hexited.trans hends) (fun actor => mt (hduties actor).mp (hheralds actor))
        (hcount.trans honce)
  | silent hends hheralds hnone hshut hconnected =>
      obtain ⟨hstill, hsame⟩ := hshut.of_passage hpassage
      exact .silent (hexited.trans hends) (fun actor => mt (hduties actor).mp (hheralds actor))
        (hcount.trans hnone) hstill (hsame.trans hconnected)

section Steps

variable {reaction : Option Fault} {deed : Deed interface}

/-- An actor that owes the announcement as before leaves who owes it as it was. -/
theorem heralds_of_same
    (hsame : (dutyOf actor (history ++ [.did actor deed])).Heralds ↔
      (dutyOf actor history).Heralds) (other : Actor) :
    (dutyOf other (history ++ [.did actor deed])).Heralds ↔ (dutyOf other history).Heralds := by
  by_cases hne : actor = other
  · subst hne
    exact hsame
  · rw [dutyOf_did_ne hne]

/-- Who owes nothing any more leaves nobody owing. -/
theorem not_heralds_of_end (hothers : ∀ other, actor ≠ other → ¬ (dutyOf other history).Heralds)
    (hend : ¬ (dutyOf actor (history ++ [.did actor deed])).Heralds) (other : Actor) :
    ¬ (dutyOf other (history ++ [.did actor deed])).Heralds := by
  by_cases hne : actor = other
  · subst hne
    exact hend
  · rw [dutyOf_did_ne hne]
    exact hothers other hne

/-- Who finds the session going on ends it, and owes the announcement, unless there is no
debugger. -/
theorem of_markExited (h : Announced state history) (hstanding : Standing state history)
    {ended : Bool} (hpermits : (dutyOf actor history).Permits .markExited)
    (hperform : state.perform reaction .markExited = some (after, ended)) :
    Announced after (history ++ [.did actor ⟨.markExited, ended⟩]) := by
  have hcount : announcements (history ++ [.did actor ⟨.markExited, ended⟩]) =
      announcements history :=
    announcements_concat (by simp [Occurrence.event?]) history
  have hpassage := passage_of_perform hpermits hperform
  have hresult := hperform
  simp only [State.perform, State.askCore, Core.markExited] at hresult
  split at hresult <;> cases hresult
  -- it had ended before
  · refine h.keep (heralds_of_same ?_) rfl hcount hpassage
    rw [dutyOf_did]
    obtain hduty | hduty | hduty := Duty.permits_markExited.mp hpermits <;>
      rw [hduty] <;> simp [Duty.after, Duty.Heralds]
  · rename_i hgoesOn
    cases h with
    | heralding _ hexited | told hexited | silent hexited => exact absurd hexited hgoesOn
    | goingOn _ hheralds hnone =>
        have hothers (other : Actor) (_ : actor ≠ other) : ¬ (dutyOf other history).Heralds :=
          hheralds other
        obtain hduty | hduty | hduty := Duty.permits_markExited.mp hpermits
        · refine .heralding actor rfl ⟨false, ?_⟩ ?_ (hcount.trans hnone)
          · rw [dutyOf_did, hduty]
            rfl
          · intro other hne
            rw [dutyOf_did_ne hne]
            exact hheralds other
        -- the debugger could not be launched
        · obtain ⟨hshut, hconnected⟩ := hstanding.shut_of_refused hduty hperform
          refine .silent rfl (not_heralds_of_end hothers ?_) (hcount.trans hnone) hshut hconnected
          rw [dutyOf_did, hduty]
          rintro ⟨opens, ⟨⟩⟩
        · refine .heralding actor rfl ⟨true, ?_⟩ ?_ (hcount.trans hnone)
          · rw [dutyOf_did, hduty]
            rfl
          · intro other hne
            rw [dutyOf_did_ne hne]
            exact hheralds other

/-- Who owes the announcement makes it, and is the only one. -/
theorem of_publish (h : Announced state history) {answer : Unit}
    (hpermits : (dutyOf actor history).Permits (.publish .exited))
    (hperform : state.perform reaction (.publish .exited) = some (after, answer)) :
    Announced after (history ++ [.did actor ⟨.publish .exited, answer⟩]) := by
  obtain ⟨opens, hduty⟩ := Duty.permits_publish_exited.mp hpermits
  have hherald : (dutyOf actor history).Heralds := ⟨opens, hduty⟩
  cases hperform
  cases h with
  | goingOn _ hheralds | told _ hheralds | silent _ hheralds =>
      exact absurd hherald (hheralds actor)
  | heralding worker hexited _ hothers hnone =>
      obtain rfl : worker = actor :=
        Classical.byContradiction fun hne => hothers actor hne hherald
      refine .told hexited (not_heralds_of_end hothers ?_) ?_
      · rw [dutyOf_did, hduty]
        rintro ⟨again, hagain⟩
        cases opens <;> cases hagain
      · rw [announcements_append, hnone]
        rfl

end Steps

/-- Whatever happens leads from one place to another. -/
theorem of_passage (h : Announced state history) (hstanding : Standing state history)
    (hpassage : Passage state history after later) : Announced after later := by
  cases hpassage with
  | aside hhistory hholdings hexited hphase =>
      refine h.keep (fun actor => ?_) hexited (announcements_aside hhistory)
        (.aside hhistory hholdings hexited hphase)
      rw [dutyOf_aside hhistory]
  | @step actor reaction action answer hpermits haction hperform hhistory =>
      subst hhistory
      by_cases hends : action = .markExited
      · subst hends
        exact h.of_markExited hstanding hpermits hperform
      by_cases htells : action = .publish .exited
      · subst htells
        exact h.of_publish hpermits hperform
      refine h.keep (heralds_of_same ?_) (perform_isExited hends hperform)
        (announcements_concat (event?_did_ne_exited htells) history)
        (passage_of_perform hpermits hperform)
      rw [dutyOf_did]
      exact Duty.heralds_after hpermits haction hends htells answer

end Announced

section Runs

variable {host : Host} {ρ α : Type} {program : ρ → Activity α} {c : Chronicle host ρ α}

theorem Possible.announced (h : Possible program c) (hprogram : ∀ r, Dutiful (program r)) :
    Announced c.session.state c.history := by
  have hnobody (actor : Actor) : ¬ (dutyOf actor []).Heralds := by
    rintro ⟨opens, ⟨⟩⟩
  exact h.of_passage hprogram Announced (.goingOn rfl hnobody rfl) fun h hpassage hannounced =>
    hannounced.of_passage (h.standing hprogram) hpassage

/-- The reader of the error stream does nothing to the session as a whole. -/
theorem Possible.error_ordinary (h : Possible program c) :
    ∀ deed ∈ deedsOf (.reader .error) c.history, ¬ deed.action.IsMilestone := by
  have hreading (reading : Stream.Reading) : (handleReading .error reading).OnlyDoes
      fun action : Action => ¬ action.IsMilestone := by
    match reading with
    | .line text =>
        have hordinary : Ordinary (fun _ => True) (handleLine text) := ordinary_handleLine text
        exact hordinary.not_isMilestone
    | .over => trivial
  exact (h.reader_onlyDoes hreading).2

end Runs

/-! ## Parties that may end a session -/

/-- All parties that may end the session have finished: the callers that asked for something that
concerns the session as a whole, the reader of the output, and the watcher of the process. -/
structure Chronicle.EndersDone {host : Host} (c : Chronicle host Request Reply) : Prop where
  callers : ∀ n request, c.requests[n]? = some request → request.Governs →
    (c.system.value? n).isSome
  output : c.session.outputTask = .done ()
  watcher : c.session.watcherTask = .done ()

section Parties

variable {host : Host} {plan : Plan} {c : Chronicle host Request Reply}

/-- Who has finished owes nothing. -/
theorem Chronicle.EndersDone.dutyOf_eq (hdone : c.EndersDone)
    (h : Possible (Request.program plan) c) (actor : Actor) : dutyOf actor c.history = .free := by
  cases actor with
  | watcher =>
      have hfollows := h.attended.watcher
      rw [hdone.watcher] at hfollows
      exact hfollows
  | reader channel =>
      cases channel with
      | output =>
          have hfollows := h.attended.reader .output
          rw [show c.session.readerTask .output = .done () from hdone.output] at hfollows
          exact hfollows
      | error => exact stageAfter_duties h.error_ordinary .free
  | caller n =>
      cases hrequest : c.requests[n]? with
      | none =>
          have habsent : deedsOf (.caller n) c.history = [] := by
            refine h.accounted.absent n ?_
            rw [← h.accounted.length_eq]
            exact List.getElem?_eq_none_iff.mp hrequest
          show duties.stageAfter .free (deedsOf (.caller n) c.history) = .free
          rw [habsent]
          rfl
      | some request =>
          by_cases hgoverns : request.Governs
          · obtain ⟨value, hvalue⟩ :=
              Option.isSome_iff_exists.mp (hdone.callers n request hrequest hgoverns)
            exact h.dutyOf_caller (Request.dutiful plan) hvalue
          · exact h.dutyOf_ordinary hrequest (Request.ordinary hgoverns plan)

theorem Chronicle.EndersDone.of_isQuiet (h : Possible (Request.program plan) c)
    (hquiet : c.isQuiet = true) : c.EndersDone := by
  have hidle {task : Activity Unit} (htask : task.value?.isSome = true) : task = .done () := by
    cases task with
    | done value => rfl
    | act => cases htask
  have hparties := hquiet
  simp only [Chronicle.isQuiet, Bool.and_eq_true] at hparties
  obtain ⟨⟨⟨-, houtput⟩, -⟩, hwatcher⟩ := hparties
  exact ⟨fun _ _ hrequest _ => h.isSome_value? hquiet hrequest, hidle houtput, hidle hwatcher⟩

end Parties

/-! ## Main result -/

/-- The end of a session is announced at most once, and not before the session has ended.  If the
session was connected to a debugger, its end has been announced as soon as all the parties that may
end it have finished.  The end of the error stream has nothing to do with it. -/
theorem exited_announced_once (host : Host) (plan : Plan) (c : Chronicle host Request Reply)
    (h : Possible (Request.program plan) c) :
    (c.session.state.core.phase ≠ .exited → (published c.history).count .exited = 0) ∧
    (published c.history).count .exited ≤ 1 ∧
    (c.session.state.wire.connected = true → c.session.state.core.phase = .exited →
      c.EndersDone → (published c.history).count .exited = 1) ∧
    ∀ deed ∈ deedsOf (.reader .error) c.history,
      deed.action ≠ .markExited ∧ deed.action ≠ .publish .exited := by
  have hagrees : c.session.state.core.isExited = (c.session.state.core.phase == .exited) :=
    h.agrees
  have hstderr : ∀ deed ∈ deedsOf (.reader .error) c.history,
      deed.action ≠ .markExited ∧ deed.action ≠ .publish .exited := by
    intro deed hdeed
    have hordinary := h.error_ordinary deed hdeed
    exact ⟨fun heq => hordinary (heq ▸ trivial), fun heq => hordinary (heq ▸ rfl)⟩
  cases h.announced (Request.dutiful plan) with
  | goingOn hexited hheralds hcount =>
      rw [hexited] at hagrees
      refine ⟨fun _ => hcount, Nat.le_trans (Nat.le_of_eq hcount) (Nat.zero_le 1), ?_, hstderr⟩
      intro _ hphase
      rw [hphase] at hagrees
      cases hagrees
  | heralding actor hexited hherald hothers hcount =>
      refine ⟨fun _ => hcount, Nat.le_trans (Nat.le_of_eq hcount) (Nat.zero_le 1), ?_, hstderr⟩
      intro _ _ hdone
      obtain ⟨opens, hduty⟩ := hherald
      rw [hdone.dutyOf_eq h] at hduty
      cases hduty
  | told hexited hheralds hcount =>
      refine ⟨?_, Nat.le_of_eq hcount, fun _ _ _ => hcount, hstderr⟩
      intro hphase
      rw [hexited] at hagrees
      exact absurd (by simpa using hagrees.symm) hphase
  | silent hexited hheralds hcount hshut hconnected =>
      refine ⟨fun _ => hcount, Nat.le_trans (Nat.le_of_eq hcount) (Nat.zero_le 1), ?_, hstderr⟩
      intro hconnected'
      rw [hconnected] at hconnected'
      cases hconnected'

/-- The process is reported gone before the session listens, the start fails, the session is
stopped again, and the output ends: the end is announced once. -/
theorem exited_announced_once_of_gone : ∃ c : Chronicle Host.blind Request Reply,
    Possible (Request.program Plan.plain) c ∧ c.EndersDone ∧
      c.session.state.wire.connected = true ∧ c.session.state.core.phase = .exited ∧
      (published c.history).count .exited = 1 := by
  obtain ⟨c, hturns, hquiet, hconnected, hphase⟩ : ∃ c : Chronicle Host.blind Request Reply,
      Chronicle.turns? (Request.program Plan.plain) {} (List.flatten
        [[.happen .reportGone, .request (.operation .startConnected)], Turn.acts 0 16,
          [.request (.operation .stop)], Turn.acts 1 2,
          [.happen (.close .output), .happen (.advance (.reader .output)),
            .happen (.advance (.reader .output))]]) = some c ∧
      c.isQuiet = true ∧ c.session.state.wire.connected = true ∧
      c.session.state.core.phase = .exited := ⟨_, rfl, rfl, rfl, rfl⟩
  have h := Possible.fresh.turns _ hturns
  have hdone := Chronicle.EndersDone.of_isQuiet h hquiet
  exact ⟨c, h, hdone, hconnected, hphase,
    (exited_announced_once _ _ c h).2.2.1 hconnected hphase hdone⟩

end DebugBridge.Session
