import DebugBridge.Proofs.Bridge.Bookkeeping
import DebugBridge.Proofs.Codec.Detour
import DebugBridge.Proofs.Session.Acceptance

/-!
# The breakpoints of a bridge

A bridge remembers the breakpoints that were set through it.  A request for a breakpoint adds it
exactly if its command counts as a success, which is the case when the debugger has accepted it, and
also when the command was declined because the target executes: then nothing was written, and the
debugger does not know the breakpoint.

## Strategy

What the breakpoints are follows from what the callers have done (`registered`).  A request for a
breakpoint remembers it by its last action, so that whatever it has done when it has ended decides
whether it did so (`Inserted`).

## Main statements

* `Possible.breakpoints_eq`: the breakpoints are those that were remembered and not forgotten since.
* `breakpoint_registration`: which requests remember which breakpoints, and when.
-/

namespace DebugBridge.Bridge

open Session (Declined Accepted AcceptedIn)

/-! ## Breakpoints and history -/

/-- What an action makes of the breakpoints. -/
def Action.onBreakpoints : Action → List Breakpoint → List Breakpoint
  | remember breakpoint, list =>
      if list.any (·.same breakpoint) then list else breakpoint :: list
  | forget breakpoint, list => list.filter (!·.same breakpoint)
  | _, list => list

/-- What an occurrence makes of the breakpoints. -/
def Occurrence.onBreakpoints : Occurrence → List Breakpoint → List Breakpoint
  | .did _ deed => deed.action.onBreakpoints
  | .gaveUp _ _ | .happened _ => id

/-- The breakpoints that were remembered and not forgotten since, latest first. -/
def registered (history : History) : List Breakpoint :=
  history.foldl (fun list occurrence => occurrence.onBreakpoints list) []

theorem perform_breakpoints {reaction : Option Fault} {action : Action} {state next : State}
    {answer : action.Answer} (h : state.perform reaction action = some (next, answer)) :
    next.breakpoints = action.onBreakpoints state.breakpoints := by
  cases action with
  | on id action =>
      obtain ⟨session, after, -, -, rfl⟩ := withSession_eq_some h
      rfl
  | place id =>
      simp only [State.perform] at h
      split at h <;> cases h <;> rfl
  | remember breakpoint =>
      cases h
      simp only [State.remember, Action.onBreakpoints]
      split <;> rfl
  | _ =>
      cases h
      rfl

theorem Occurrence.IsOfSession.onBreakpoints {occurrence : Occurrence} (h : occurrence.IsOfSession)
    (list : List Breakpoint) : occurrence.onBreakpoints list = list := by
  cases occurrence with
  | did caller deed =>
      obtain ⟨action, answer⟩ := deed
      obtain ⟨id, act, rfl⟩ := h
      rfl
  | gaveUp | happened => rfl

/-- The breakpoints are those that were remembered and not forgotten since. -/
theorem Possible.breakpoints_eq {isFile : String → Bool} {surroundings : Surroundings}
    {c : Chronicle isFile} (h : Possible surroundings c) :
    c.state.breakpoints = registered c.history := by
  refine h.foldl_eq State.breakpoints Occurrence.onBreakpoints (fun _ _ _ hsame => hsame) ?_ ?_
  · exact fun _ list haside => haside.onBreakpoints list
  · exact fun hperform => perform_breakpoints hperform

/-! ## What a request does to the breakpoints -/

/-- The line that sets a breakpoint. -/
def insertLine (breakpoint : Breakpoint) : String :=
  Session.commandLine "-break-insert" [breakpoint.locationArgument]

/-- What a request for a breakpoint has done when it has ended: it has remembered the breakpoint
exactly if its command was declined or accepted on some session, and written no other line. -/
structure Inserted (breakpoint : Breakpoint) (deeds : List (Deed interface)) : Prop where
  remembers : ⟨.remember breakpoint, ()⟩ ∈ deeds ↔ ∃ id,
    Declined (deeds.filterMap (deedOn? id)) ∨
      Accepted (insertLine breakpoint) (deeds.filterMap (deedOn? id))
  lines : ∀ id text fault, ⟨.write text, fault⟩ ∈ deeds.filterMap (deedOn? id) →
    text = insertLine breakpoint

/-- A request whose command has been settled on a session is as stated, if it has remembered the
breakpoint exactly after a success. -/
theorem Inserted.of_settled {breakpoint : Breakpoint} {outcome : Outcome} (id : Nat)
    {commanded : List (Deed Session.interface)} {deeds : List (Deed interface)}
    (h : Session.Settled (insertLine breakpoint) outcome commanded)
    (hdeeds : ∀ other, deeds.filterMap (deedOn? other) = if id = other then commanded else [])
    (hremember : ⟨.remember breakpoint, ()⟩ ∈ deeds ↔ outcome.isSuccess = true) :
    Inserted breakpoint deeds where
  remembers := by
    rw [hremember, h.1]
    constructor
    · intro hsuccess
      exact ⟨id, by simpa [hdeeds] using hsuccess⟩
    · rintro ⟨other, hsuccess⟩
      rw [hdeeds] at hsuccess
      split at hsuccess
      · exact hsuccess
      · simp [Declined, Accepted] at hsuccess
  lines other text fault hmem := by
    rw [hdeeds] at hmem
    split at hmem
    · exact h.2 text fault hmem
    · cases hmem

/-- A request for a breakpoint does nothing more once it has remembered it. -/
theorem insert_follows (breakpoint : Breakpoint) :
    (insert breakpoint).Follows
      (Protocol.ledger fun deeds _ => ⟨.remember breakpoint, ()⟩ ∉ deeds) []
      fun _ deeds => Inserted breakpoint deeds := by
  refine ⟨by simp, fun tenant? _ => ?_⟩
  cases tenant? with
  | none =>
      refine Program.follows_pure.mpr ⟨?_, ?_⟩
      · simp [deedOn?, Declined, Accepted]
      · simp [deedOn?]
  | some tenant =>
      have hcall : (Session.call tenant.plan.config (.insert breakpoint)).Yields
          (Session.Settled (insertLine breakpoint)) :=
        Session.whenCommanded_yields _ _ _
      refine (onSession_follows_ledger hcall _ fun more action => by simp [deedOn]).bind ?_
      rintro outcome _ ⟨more, rfl, hsettled⟩
      obtain ⟨decoded, hdecoded, hstatus⟩ := outcome.exists_decoder_normal
      have hsame : decoded.isSuccess = outcome.isSuccess := by
        simp only [Outcome.isSuccess, hstatus]
      simp only [hdecoded, hsame]
      split
      · rename_i hsuccess
        refine ⟨by simp [deedOn], fun _ _ => .of_settled tenant.id hsettled ?_ ?_⟩
        · intro other
          simp [filterMap_deedOn?, deedOn?_eq_none]
        · simp [hsuccess]
      · rename_i hfailed
        refine Program.follows_pure.mpr (.of_settled tenant.id hsettled ?_ ?_)
        · intro other
          simp [filterMap_deedOn?, deedOn?_eq_none]
        · simp [hfailed, deedOn]

/-! ## The callers of a run -/

section Runs

variable {isFile : String → Bool} {surroundings : Surroundings} {c : Chronicle isFile}

/-- What a caller does to the bridge may belong to what is asked for. -/
theorem Possible.serves (h : Possible surroundings c) {caller : Nat} {deed : Deed interface}
    (hdeed : deed ∈ deedsOf caller c.history) :
    deed.action.Serves (c.asked caller) ∨ ∃ id act, deed.action = .on id act := by
  cases hrest : c.system.callers[caller]? with
  | none =>
      have hnone := h.accounted.absent caller (List.getElem?_eq_none_iff.mp hrest)
      simp [hnone] at hdeed
  | some rest =>
      obtain ⟨errand, herrand, hleads⟩ := h.accounted.leads caller rest hrest
      have hasked : c.asked caller = errand.ask? := by simp [Chronicle.asked, herrand]
      rw [hasked]
      exact (hleads.onlyDoes (errand.assembled surroundings).onlyDoes).1 deed hdeed

/-- Who forgets a breakpoint asks for that. -/
theorem Possible.asked_of_forget (h : Possible surroundings c) {caller : Nat}
    {breakpoint : Breakpoint} (hdeed : ⟨.forget breakpoint, ()⟩ ∈ deedsOf caller c.history) :
    c.asked caller = some (.remove breakpoint) := by
  rcases h.serves hdeed with hserves | ⟨id, act, heq⟩
  · exact hserves
  · cases heq

/-- What a caller has done leads from what is asked for to what is left of it. -/
theorem Possible.leads_of_asked (h : Possible surroundings c) {caller : Nat} {ask : Ask}
    (hasked : c.asked caller = some ask) : ∃ errand rest, c.errands[caller]? = some errand ∧
      c.system.callers[caller]? = some rest ∧
      (do return reply errand.id? (← ask.answer surroundings) : Activity (Option String)).Leads
        (deedsOf caller c.history) rest := by
  obtain ⟨errand, herrand, hask⟩ := Option.bind_eq_some_iff.mp hasked
  obtain ⟨rest, hcaller, hleads⟩ := h.accounted.leads_of_request herrand
  rw [errand.program_of_ask? surroundings hask] at hleads
  exact ⟨errand, rest, herrand, hcaller, hleads⟩

/-- What a caller that asks for a breakpoint has done: it is not over before the breakpoint is
remembered, and when it is over, it is as stated. -/
theorem Possible.inserted (h : Possible surroundings c) {caller : Nat} {breakpoint : Breakpoint}
    (hasked : c.asked caller = some (.insert breakpoint)) :
    ⟨.remember breakpoint, ()⟩ ∉ deedsOf caller c.history ∧ c.system.value? caller = none ∨
      Inserted breakpoint (deedsOf caller c.history) ∧ (c.system.value? caller).isSome := by
  obtain ⟨errand, rest, -, hcaller, hleads⟩ := h.leads_of_asked hasked
  have hfollows : (do return reply errand.id? (← insert breakpoint) :
      Activity (Option String)).Follows
      (Protocol.ledger fun deeds _ => ⟨.remember breakpoint, ()⟩ ∉ deeds) []
      fun _ deeds => Inserted breakpoint deeds :=
    (insert_follows breakpoint).bind fun _ _ hinserted => hinserted
  have hrest := hleads.follows (fun _ _ => trivial) hfollows
  rw [Protocol.stageAfter_ledger, List.nil_append] at hrest
  cases rest with
  | done value =>
      exact .inr ⟨hrest, Option.isSome_of_eq_some (System.value?_eq_some_iff.mpr hcaller)⟩
  | act action next => exact .inl ⟨hrest.1, System.value?_of_act hcaller⟩

/-- A command of a caller that writes only one line was accepted on a session exactly if the line
was written there and the outcome that it waited for is a success. -/
theorem Possible.accepted_iff (h : Possible surroundings c) {caller id : Nat} {line : String}
    (hlines : ∀ text fault,
      ⟨.write text, fault⟩ ∈ (deedsOf caller c.history).filterMap (deedOn? id) → text = line) :
    Accepted line ((deedsOf caller c.history).filterMap (deedOn? id)) ↔
      AcceptedIn (historyOf id c.history) caller line := by
  rw [← h.deedsOf_historyOf id caller] at hlines ⊢
  cases hsession : c.state.session? id with
  | some session => exact (h.lived hsession).accepted_iff hlines
  | none =>
      -- nothing has happened there
      rw [h.lives.absent id hsession]
      simp [Accepted, AcceptedIn]

end Runs

/-! ## Registration -/

/-- In every run the breakpoints are those that callers have remembered and not forgotten since.  A
caller remembers a breakpoint only if it asks for it, and forgets one only if it asks for that.  A
caller that asks for a breakpoint remembers it exactly when its request is over and its command
counted as a success: the command was declined because the target executes, and nothing was written,
or its line was written and the debugger has printed the success that it returned. -/
theorem breakpoint_registration (isFile : String → Bool) (surroundings : Surroundings)
    (c : Chronicle isFile) (h : Possible surroundings c) :
    c.state.breakpoints = registered c.history ∧
    (∀ caller breakpoint, ⟨.remember breakpoint, ()⟩ ∈ deedsOf caller c.history →
      c.asked caller = some (.insert breakpoint)) ∧
    (∀ caller breakpoint, ⟨.forget breakpoint, ()⟩ ∈ deedsOf caller c.history →
      c.asked caller = some (.remove breakpoint)) ∧
    ∀ caller breakpoint, c.asked caller = some (.insert breakpoint) →
      (⟨.remember breakpoint, ()⟩ ∈ deedsOf caller c.history ↔
        (c.system.value? caller).isSome ∧ ∃ id,
          Declined (deedsOf (.caller caller) (historyOf id c.history)) ∨
          AcceptedIn (historyOf id c.history) caller (insertLine breakpoint)) := by
  refine ⟨h.breakpoints_eq, ?_, ?_, ?_⟩
  · intro caller breakpoint hdeed
    rcases h.serves hdeed with hserves | ⟨id, act, heq⟩
    · exact hserves
    · cases heq
  · intro caller breakpoint hdeed
    exact h.asked_of_forget hdeed
  · intro caller breakpoint hasked
    rcases h.inserted hasked with ⟨hnot, hgoing⟩ | ⟨hinserted, hover⟩
    · simp [hnot, hgoing]
    · rw [hinserted.remembers, and_iff_right hover]
      refine exists_congr fun id => ?_
      rw [h.deedsOf_historyOf, h.accepted_iff (hinserted.lines id)]

/-! ## Two runs -/

/-- A session is put in place and is being started, so that commands are possible. -/
def Turn.opening : List Turn :=
  [adopt .plain none, errand (.attach 0)] ++ Turn.acts 0 1 ++
    [errand (.operation 0 .plain .startConnected)] ++ Turn.acts 1 4

/-- The host asks for a breakpoint in the seventh line of a file. -/
def Errand.seventhLine : Errand :=
  .line ("\x7b\"jsonrpc\":\"2.0\",\"method\":\"break/insert\"," ++
    "\"params\":\x7b\"file\":\"a.c\",\"line\":7\x7d\x7d")

/-- A breakpoint that is asked for while the target executes is remembered, although nothing was
written. -/
theorem remembered_unwritten :
    ¬ ∀ (isFile : String → Bool) (surroundings : Surroundings) (c : Chronicle isFile),
      Possible surroundings c → ∀ breakpoint ∈ c.state.breakpoints,
        ∃ id, insertLine breakpoint ∈ Session.written (historyOf id c.history) := by
  intro hclaim
  have hrun : (Chronicle.turns? .bare ({} : Chronicle fun _ => false)
      (List.flatten [Turn.opening, Turn.prints 0 "*running,thread-id=\"all\"",
        [.errand .seventhLine], Turn.acts 2 8])).any (fun c => decide (
          c.state.breakpoints = [⟨"a.c", 7⟩] ∧ c.state.members.length = 1 ∧
          Session.written (historyOf 0 c.history) = [])) = true := by
    decide +kernel
  obtain ⟨c, hturns, hcheck⟩ := (Option.any_eq_true _ _).mp hrun
  obtain ⟨hbreakpoints, hlength, hwritten⟩ := of_decide_eq_true hcheck
  have h := Possible.fresh.turns _ hturns
  obtain ⟨id, hline⟩ := hclaim _ _ c h ⟨"a.c", 7⟩ (by simp [hbreakpoints])
  cases id with
  | zero => simp [hwritten] at hline
  | succ id =>
      have hnothing : historyOf (id + 1) c.history = [] := h.historyOf_eq_nil (by omega)
      rw [hnothing] at hline
      cases hline

/-- A breakpoint that the debugger has accepted is remembered. -/
theorem breakpoint_registration_of_done :
    ∃ c : Chronicle fun _ => false, Possible .bare c ∧ c.state.breakpoints = [⟨"a.c", 7⟩] ∧
      AcceptedIn (historyOf 0 c.history) 2 (insertLine ⟨"a.c", 7⟩) := by
  have hrun : (Chronicle.turns? .bare ({} : Chronicle fun _ => false)
      (List.flatten [Turn.opening, [.errand .seventhLine], Turn.acts 2 8, Turn.prints 0 "^done",
        Turn.acts 2 3])).any (fun c => decide (c.state.breakpoints = [⟨"a.c", 7⟩] ∧
          c.asked 2 = some (.insert ⟨"a.c", 7⟩) ∧ c.state.members.length = 1 ∧
          (∃ deed ∈ deedsOf (2 : Nat) c.history, deed.action = Action.remember ⟨"a.c", 7⟩) ∧
          ∃ deed ∈ deedsOf (.caller 2) (historyOf 0 c.history),
            deed.action = .write (insertLine ⟨"a.c", 7⟩))) = true := by
    decide +kernel
  obtain ⟨c, hturns, hcheck⟩ := (Option.any_eq_true _ _).mp hrun
  obtain ⟨hbreakpoints, hasked, hlength, ⟨⟨_, _⟩, hremembers, rfl⟩, ⟨⟨_, fault⟩, hwrites, rfl⟩⟩ :=
    of_decide_eq_true hcheck
  have h := Possible.fresh.turns _ hturns
  obtain ⟨-, id, hsettled⟩ := ((breakpoint_registration _ _ c h).2.2.2 2 _ hasked).mp hremembers
  cases id with
  | zero =>
      -- its line was written, so it was not declined
      exact ⟨c, h, hbreakpoints, hsettled.resolve_left fun hdeclined =>
        hdeclined.2 _ fault hwrites⟩
  | succ id =>
      have hnothing : historyOf (id + 1) c.history = [] := h.historyOf_eq_nil (by omega)
      simp [hnothing, Declined, AcceptedIn] at hsettled

end DebugBridge.Bridge
