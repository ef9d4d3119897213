import DebugBridge.Proofs.Bridge.Registry

/-!
# Forgetting breakpoints

A request to remove a breakpoint has the debugger clear it on the session in place, and then forgets
it.  What became of the command makes no difference to that: a breakpoint that is still set is
forgotten too, when the command was declined because the target executes, could not be written, got
no answer in time, found the session ended, or was answered by an error.

## Strategy

A request to remove a breakpoint forgets it by its last action, and it comes to that exactly if it
has found a session in place (`Removed`).

## Main statements

* `breakpointAt?_forget`: where a breakpoint was forgotten none is found, and elsewhere nothing
  changes.
* `breakpoint_removal`: which requests forget which breakpoints, and when.
-/

namespace DebugBridge.Bridge

open Session (Declined Accepted AcceptedIn Settled)

/-! ## Looking up breakpoints -/

/-- A breakpoint at the same place as another one is found where that one is. -/
theorem isAt_of_same {first second : Breakpoint} (h : first.same second = true) (file : String)
    (line : Nat) : first.isAt file line = second.isAt file line := by
  obtain ⟨hline, hfile⟩ : first.line = second.line ∧
      Text.Path.components first.file = Text.Path.components second.file := by
    simpa [Breakpoint.same, Breakpoint.isAt, Text.Path.same] using h
  simp [Breakpoint.isAt, Text.Path.same, hline, hfile]

theorem same_of_isAt {first second : Breakpoint} {file : String} {line : Nat}
    (hfirst : first.isAt file line = true) (hsecond : second.isAt file line = true) :
    first.same second = true := by
  simp only [Breakpoint.same, Breakpoint.isAt, Text.Path.same, Bool.and_eq_true, beq_iff_eq] at *
  exact ⟨hfirst.1.trans hsecond.1.symm, hfirst.2.trans hsecond.2.symm⟩

/-- Where a breakpoint was forgotten none is found, and elsewhere there is what was there before. -/
theorem breakpointAt?_forget (breakpoint : Breakpoint) (state : State) (file : String)
    (line : Nat) : (state.forget breakpoint).breakpointAt? file line =
      if breakpoint.isAt file line then none else state.breakpointAt? file line := by
  rw [State.breakpointAt?, State.forget, List.find?_filter]
  split
  · rename_i hat
    refine List.find?_eq_none.mpr fun other _ => ?_
    simp only [decide_eq_true_eq, not_and]
    intro hother hfound
    simp [same_of_isAt hfound hat] at hother
  · rename_i hat
    rw [State.breakpointAt?]
    congr 1
    funext other
    cases hsame : other.same breakpoint with
    | false => simp
    | true => simp [isAt_of_same hsame, hat]

/-! ## What a request does -/

/-- The line that clears a breakpoint. -/
def removeLine (breakpoint : Breakpoint) : String :=
  Session.commandLine "clear" [breakpoint.locationArgument]

/-- What a request to remove a breakpoint has done when it has ended, with its answer: it has found
no session in place, or it has forgotten the breakpoint after the command on that session. -/
inductive Removed (breakpoint : Breakpoint) : Answer → List (Deed interface) → Prop
  | vacant : Removed breakpoint (.error .noSession) [⟨.current, none⟩]
  | forgotten {tenant : Tenant} {outcome : Outcome} {commanded : List (Deed Session.interface)}
      (hcommand : (Session.call tenant.plan.config (.remove breakpoint)).Leads commanded
        (.done outcome)) :
      Removed breakpoint (.ok outcome.toJson)
        (⟨.current, some tenant⟩ ::
          (commanded.map (deedOn tenant.id) ++ [⟨.forget breakpoint, ()⟩]))

/-- A request to remove a breakpoint does nothing more once it has forgotten it. -/
theorem remove_follows (breakpoint : Breakpoint) :
    (remove breakpoint).Follows
      (Protocol.ledger fun deeds _ => ⟨.forget breakpoint, ()⟩ ∉ deeds) []
      fun answer deeds => Removed breakpoint answer deeds := by
  refine ⟨by simp, fun tenant? _ => ?_⟩
  cases tenant? with
  | none => exact .vacant
  | some tenant =>
      have hcall := Program.yields_leads (Session.call tenant.plan.config (.remove breakpoint))
      refine (onSession_follows_ledger hcall _ fun more action => by simp [deedOn]).bind ?_
      rintro outcome _ ⟨more, rfl, hcommand⟩
      exact ⟨by simp [deedOn], fun _ _ => .forgotten hcommand⟩

/-- A request has forgotten its breakpoint when it has ended, if it has found a session in place. -/
theorem Removed.forget_mem_iff {breakpoint : Breakpoint} {answer : Answer}
    {deeds : List (Deed interface)} (h : Removed breakpoint answer deeds) :
    ⟨.forget breakpoint, ()⟩ ∈ deeds ↔ ∃ tenant, ⟨.current, some tenant⟩ ∈ deeds := by
  cases h with
  | vacant => simp
  | @forgotten tenant outcome commanded hcommand =>
      exact ⟨fun _ => ⟨tenant, List.mem_cons_self⟩, fun _ => by simp⟩

/-! ## The callers of a run -/

section Runs

variable {isFile : String → Bool} {surroundings : Surroundings} {c : Chronicle isFile}
  {caller : Nat} {breakpoint : Breakpoint}

/-- What a caller that asks to remove a breakpoint has done: it is not over before the breakpoint is
forgotten, and when it is over, it is as stated. -/
theorem Possible.removed (h : Possible surroundings c)
    (hasked : c.asked caller = some (.remove breakpoint)) :
    ⟨.forget breakpoint, ()⟩ ∉ deedsOf caller c.history ∧ c.system.value? caller = none ∨
      ∃ errand answer, c.errands[caller]? = some errand ∧
        c.system.value? caller = some (reply errand.id? answer) ∧
        Removed breakpoint answer (deedsOf caller c.history) := by
  obtain ⟨errand, rest, herrand, hcaller, hleads⟩ := h.leads_of_asked hasked
  have hfollows : (do return reply errand.id? (← remove breakpoint) :
      Activity (Option String)).Follows
      (Protocol.ledger fun deeds _ => ⟨.forget breakpoint, ()⟩ ∉ deeds) []
      fun value deeds => ∃ answer, value = reply errand.id? answer ∧
        Removed breakpoint answer deeds :=
    (remove_follows breakpoint).bind fun answer _ hremoved => ⟨answer, rfl, hremoved⟩
  have hrest := hleads.follows (fun _ _ => trivial) hfollows
  rw [Protocol.stageAfter_ledger, List.nil_append] at hrest
  cases rest with
  | done value =>
      obtain ⟨answer, rfl, hremoved⟩ := hrest
      exact .inr ⟨errand, answer, herrand, System.value?_eq_some_iff.mpr hcaller, hremoved⟩
  | act action next => exact .inl ⟨hrest.1, System.value?_of_act hcaller⟩

/-- A breakpoint was forgotten after a command for it had come to an outcome, whatever that was. -/
theorem Possible.exists_command (h : Possible surroundings c)
    (hasked : c.asked caller = some (.remove breakpoint))
    (hforgot : ⟨.forget breakpoint, ()⟩ ∈ deedsOf caller c.history) :
    ∃ (errand : Errand) (tenant : Tenant) (outcome : Outcome), c.errands[caller]? = some errand ∧
      c.system.value? caller = some (reply errand.id? (.ok outcome.toJson)) ∧
      (Session.call tenant.plan.config (.remove breakpoint)).Leads
        (deedsOf (.caller caller) (historyOf tenant.id c.history)) (.done outcome) ∧
      (outcome.isSuccess = true ↔
        Declined (deedsOf (.caller caller) (historyOf tenant.id c.history)) ∨
        AcceptedIn (historyOf tenant.id c.history) caller (removeLine breakpoint)) := by
  rcases h.removed hasked with ⟨hnot, -⟩ | ⟨errand, answer, herrand, hvalue, hremoved⟩
  · exact absurd hforgot hnot
  generalize hdeeds : deedsOf caller c.history = deeds at hremoved hforgot
  cases hremoved with
  | vacant => simp at hforgot
  | @forgotten tenant outcome commanded hcommand =>
      have hcommanded : (deedsOf caller c.history).filterMap (deedOn? tenant.id) = commanded := by
        rw [hdeeds]
        simp [filterMap_deedOn?, deedOn?_eq_none]
      have hsettled : Settled (removeLine breakpoint) outcome commanded :=
        (Session.whenCommanded_yields _ _ _).of_leads hcommand
      refine ⟨errand, tenant, outcome, herrand, hvalue, ?_, ?_⟩
      · rw [h.deedsOf_historyOf, hcommanded]
        exact hcommand
      · rw [h.deedsOf_historyOf, ← h.accepted_iff fun text fault hmem =>
          hsettled.2 text fault (hcommanded ▸ hmem), hcommanded]
        exact hsettled.1

end Runs

/-! ## Removal -/

/-- In every run a caller forgets a breakpoint only if it asks for that, and a caller that asks for
it forgets it exactly when its request is over and has found a session in place.  It has forgotten
the breakpoint once its command on that session had come to an outcome, which it answers with: this
may be a success, which it is exactly if the command was declined because the target executes or was
accepted, or any failure.  From then on there is no breakpoint at its place, and elsewhere nothing
has changed. -/
theorem breakpoint_removal (isFile : String → Bool) (surroundings : Surroundings)
    (c : Chronicle isFile) (h : Possible surroundings c) :
    c.state.breakpoints = registered c.history ∧
    (∀ caller breakpoint, ⟨.forget breakpoint, ()⟩ ∈ deedsOf caller c.history →
      c.asked caller = some (.remove breakpoint)) ∧
    ∀ caller breakpoint, c.asked caller = some (.remove breakpoint) →
      (⟨.forget breakpoint, ()⟩ ∈ deedsOf caller c.history ↔
        (c.system.value? caller).isSome ∧
          ∃ tenant, ⟨.current, some tenant⟩ ∈ deedsOf caller c.history) ∧
      (⟨.forget breakpoint, ()⟩ ∈ deedsOf caller c.history →
        ∃ (errand : Errand) (tenant : Tenant) (outcome : Outcome),
          c.errands[caller]? = some errand ∧
          c.system.value? caller = some (reply errand.id? (.ok outcome.toJson)) ∧
          (Session.call tenant.plan.config (.remove breakpoint)).Leads
            (deedsOf (.caller caller) (historyOf tenant.id c.history)) (.done outcome) ∧
          (outcome.isSuccess = true ↔
            Declined (deedsOf (.caller caller) (historyOf tenant.id c.history)) ∨
            AcceptedIn (historyOf tenant.id c.history) caller (removeLine breakpoint))) ∧
      ∀ past future, c.history = past ++ .did caller ⟨.forget breakpoint, ()⟩ :: future →
        ∃ before after : Chronicle isFile,
          Possible surroundings before ∧ before.history = past ∧
          Possible surroundings after ∧
          after.history = past ++ [.did caller ⟨.forget breakpoint, ()⟩] ∧
          ∀ file line, after.state.breakpointAt? file line =
            if breakpoint.isAt file line then none
            else before.state.breakpointAt? file line := by
  refine ⟨h.breakpoints_eq, ?_, fun caller breakpoint hasked => ⟨?_, h.exists_command hasked, ?_⟩⟩
  · intro caller breakpoint hdeed
    exact h.asked_of_forget hdeed
  · rcases h.removed hasked with ⟨hnot, hgoing⟩ | ⟨errand, answer, herrand, hvalue, hremoved⟩
    · simp [hnot, hgoing]
    · simp [hvalue, hremoved.forget_mem_iff]
  · intro past future hhistory
    obtain ⟨before, after, reaction, hbefore, hpast, hafter, hmoment, hperform⟩ :=
      h.exists_moment (by simp) hhistory
    have hforget : some (before.state.forget breakpoint, ()) = some (after.state, ()) := hperform
    have hstate : before.state.forget breakpoint = after.state :=
      congrArg Prod.fst (Option.some.inj hforget)
    refine ⟨before, after, hbefore, hpast, hafter, hmoment, fun file line => ?_⟩
    rw [← hstate]
    exact breakpointAt?_forget breakpoint before.state file line

/-! ## Two runs -/

/-- The host asks that the breakpoint in the seventh line of a file be removed. -/
def Errand.seventhLineRemoved : Errand :=
  .line ("\x7b\"jsonrpc\":\"2.0\",\"method\":\"break/remove\"," ++
    "\"params\":\x7b\"file\":\"a.c\",\"line\":7\x7d\x7d")

/-- A breakpoint that the debugger has accepted. -/
def Turn.inserting : List Turn :=
  opening ++ [errand .seventhLine] ++ Turn.acts 2 8 ++ prints 0 "^done" ++ Turn.acts 2 3

/-- A breakpoint that is to be removed while the target executes is forgotten, although nothing was
written. -/
theorem forgotten_unwritten :
    ¬ ∀ (isFile : String → Bool) (surroundings : Surroundings) (c : Chronicle isFile),
      Possible surroundings c → ∀ caller breakpoint,
        ⟨.forget breakpoint, ()⟩ ∈ deedsOf caller c.history →
          ∃ id, AcceptedIn (historyOf id c.history) caller (removeLine breakpoint) := by
  intro hclaim
  have hrun : (Chronicle.turns? .bare ({} : Chronicle fun _ => false)
      (List.flatten [Turn.inserting, Turn.prints 0 "*running,thread-id=\"all\"",
        [.errand .seventhLineRemoved], Turn.acts 3 8])).any (fun c => decide (
          c.state.members.length = 1 ∧
          (∃ deed ∈ deedsOf (3 : Nat) c.history, deed.action = Action.forget ⟨"a.c", 7⟩) ∧
          Session.written (historyOf 0 c.history) = [insertLine ⟨"a.c", 7⟩])) = true := by
    decide +kernel
  obtain ⟨c, hturns, hcheck⟩ := (Option.any_eq_true _ _).mp hrun
  obtain ⟨hlength, ⟨⟨_, _⟩, hforgets, rfl⟩, hwritten⟩ := of_decide_eq_true hcheck
  have h := Possible.fresh.turns _ hturns
  obtain ⟨id, haccepted⟩ := hclaim _ _ c h 3 _ hforgets
  cases id with
  | zero =>
      have hline : removeLine ⟨"a.c", 7⟩ ∈ Session.written (historyOf 0 c.history) :=
        List.mem_filterMap.mpr ⟨_, haccepted.own_mem, rfl⟩
      rw [hwritten] at hline
      exact absurd hline (by decide +kernel)
  | succ id =>
      have hnothing : historyOf (id + 1) c.history = [] := h.historyOf_eq_nil (by omega)
      simp [hnothing, AcceptedIn] at haccepted

/-- A breakpoint is forgotten although the debugger has answered that it could not clear it. -/
theorem breakpoint_removal_of_error :
    ∃ (c : Chronicle fun _ => false) (tenant : Tenant) (outcome : Outcome), Possible .bare c ∧
      (Session.call tenant.plan.config (.remove ⟨"a.c", 7⟩)).Leads
        (deedsOf (.caller 3) (historyOf tenant.id c.history)) (.done outcome) ∧
      outcome.isSuccess = false ∧ c.state.breakpoints = [] := by
  have hrun : (Chronicle.turns? .bare ({} : Chronicle fun _ => false)
      (List.flatten [Turn.inserting, [.errand .seventhLineRemoved], Turn.acts 3 8,
        Turn.prints 0 "^error,msg=\"No breakpoint at a.c:7.\"",
        [.happen (.on 0 (.advance (.reader .output)))], Turn.acts 3 3])).any (fun c => decide (
          c.state.breakpoints = [] ∧ c.asked 3 = some (.remove ⟨"a.c", 7⟩) ∧
          (∃ deed ∈ deedsOf (3 : Nat) c.history, deed.action = Action.forget ⟨"a.c", 7⟩) ∧
          (∃ deed ∈ deedsOf (.caller 3) (historyOf 0 c.history),
            deed.action = .write (removeLine ⟨"a.c", 7⟩)) ∧
          c.state.members.length = 1 ∧
          ∀ outcome ∈ (deedsOf (.caller 3) (historyOf 0 c.history)).filterMap Session.taken?,
            outcome.isSuccess = false)) = true := by
    decide +kernel
  obtain ⟨c, hturns, hcheck⟩ := (Option.any_eq_true _ _).mp hrun
  obtain ⟨hbreakpoints, hasked, ⟨⟨_, _⟩, hforgets, rfl⟩, ⟨⟨_, fault⟩, hwrites, rfl⟩, hlength,
    hfailed⟩ := of_decide_eq_true hcheck
  have h := Possible.fresh.turns _ hturns
  obtain ⟨-, tenant, outcome, -, -, hleads, hsuccess⟩ :=
    ((breakpoint_removal _ _ c h).2.2 3 _ hasked).2.1 hforgets
  refine ⟨c, tenant, outcome, h, hleads, ?_, hbreakpoints⟩
  refine Bool.eq_false_iff.mpr fun htrue => ?_
  have hcommand := hsuccess.mp htrue
  cases hid : tenant.id with
  | zero =>
      rw [hid] at hcommand
      -- its line was written, so it was not declined
      obtain ⟨before, since, after, ticket, limit, claimed, accepted, hhistory, haccepted⟩ :=
        hcommand.resolve_left fun hdeclined => hdeclined.2 _ fault hwrites
      have hfalse := hfailed accepted (List.mem_filterMap.mpr
        ⟨⟨.awaitResult ticket limit claimed, accepted⟩,
          mem_deedsOf.mpr (.inl (by simp [hhistory])), rfl⟩)
      rw [haccepted.success] at hfalse
      cases hfalse
  | succ id =>
      have hnothing : historyOf (id + 1) c.history = [] := h.historyOf_eq_nil (by omega)
      simp [hid, hnothing, Declined, AcceptedIn] at hcommand

end DebugBridge.Bridge
