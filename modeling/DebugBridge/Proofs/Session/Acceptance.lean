import DebugBridge.Proofs.Session.Answers
import DebugBridge.Proofs.Session.Endings

/-!
# When a command counts as a success

A caller learns from the status of an outcome whether its command was a success.  Of the outcomes
that no record stands behind, one has the status of a success: that of a command which was declined
because the target executes.

## Main statements

* `whenCommanded_yields`: a command counts as a success exactly when it was declined, or when its
  line was written and the outcome that it waited for is a success.
* `Lived.accepted_iff`: in the latter case the outcome is a record that the debugger has printed,
  the last that was delivered while the command was in flight.
-/

namespace DebugBridge.Session

def taken? : Deed interface → Option Outcome
  | ⟨.awaitResult _ _ _, outcome⟩ => some outcome
  | _ => none

/-- A command was declined because the target executes, and nothing was written. -/
def Declined (deeds : List (Deed interface)) : Prop :=
  ⟨.claimTarget, false⟩ ∈ deeds ∧ ∀ line fault, ⟨.write line, fault⟩ ∉ deeds

/-- The line of a command was written, and the outcome that it waited for is a success. -/
def Accepted (line : String) (deeds : List (Deed interface)) : Prop :=
  ⟨.write line, none⟩ ∈ deeds ∧ ∃ outcome ∈ deeds.filterMap taken?, outcome.isSuccess = true

/-- The command for a line has come to an outcome: it counts as a success exactly if it was declined
or accepted, and no other line was written. -/
def Settled (line : String) (outcome : Outcome) (deeds : List (Deed interface)) : Prop :=
  (outcome.isSuccess = true ↔ Declined deeds ∨ Accepted line deeds) ∧
    ∀ text fault, ⟨.write text, fault⟩ ∈ deeds → text = line

/-- A command that was declined was not written, and only what it waited for can be a success when it
was. -/
theorem Ending.settled {config : Config} {line : String} {limit : Nat} {way : Way}
    {outcome : Outcome} {deeds : List (Deed interface)}
    (h : Ending config line limit way outcome deeds) : Settled line outcome deeds := by
  have hexited : Outcome.sessionExited.isSuccess = false := rfl
  have hdeclined : Outcome.targetRunning.isSuccess = true := rfl
  cases h with
  | exited => simp [Settled, Declined, Accepted, hexited]
  | rejected => simp [Settled, Declined, hdeclined]
  | unwritten ticket fault exited =>
      have hfailed : (Outcome.writeFailed fault.message).isSuccess = false := rfl
      cases hmode : config.asyncMode <;> cases exited <;>
        simp +contextual [Settled, Declined, Accepted, admission, retreat, hmode, hexited, hfailed]
  | waited =>
      cases hmode : config.asyncMode <;>
        simp +contextual [Settled, Declined, Accepted, taken?, admission, hmode]

theorem runCommand_yields (config : Config) (line : String) (limit : Nat) :
    (runCommand config line limit).Yields (Settled line) := by
  refine (runCommand_ends config line limit).mono ?_
  rintro outcome _ ⟨granted, way, tenure, rfl, hending⟩
  simpa [Settled, Declined, Accepted, taken?] using hending.settled

/-- A command is settled once commands are possible, or it fails. -/
theorem whenCommanded_yields (config : Config) (line : String) (limit : Nat) :
    (whenCommanded (runCommand config line limit)).Yields (Settled line) := by
  have hexited : Outcome.sessionExited.isSuccess = false := rfl
  have hnotStarted : Outcome.notStarted.isSuccess = false := rfl
  intro enabled
  cases enabled with
  | true =>
      refine (runCommand_yields config line limit).mono ?_
      intro outcome deeds h
      simpa [Settled, Declined, Accepted, taken?] using h
  | false =>
      intro exited
      cases exited
      all_goals
        refine Program.yields_done.mpr ?_
        simp [Settled, Declined, Accepted, hexited, hnotStarted]

/-! ## In the life of a session -/

/-- A command for a line returns an outcome with which it was accepted; `since` is what has happened
since it armed the slot, and `past` all that has happened. -/
structure Acceptance (past since : History) (caller : Nat) (line : String) (outcome : Outcome) :
    Prop where
  /-- no other command was in flight -/
  quiet : ∀ occurrence ∈ since, ¬ occurrence.Bounds
  written : written since = [line]
  own : .did (.caller caller) ⟨.write line, none⟩ ∈ since
  delivered : (deliveries since).getLast? = some outcome
  /-- the debugger has printed a record with this outcome -/
  printed : outcome ∈ answers past
  success : outcome.isSuccess = true

/-- A caller had a command for a line, and it was accepted. -/
def AcceptedIn (history : History) (caller : Nat) (line : String) : Prop :=
  ∃ before since after ticket limit claimed outcome,
    history = before ++ .did (.caller caller) ⟨.arm, ticket⟩ :: since ++
      .did (.caller caller) ⟨.awaitResult ticket limit claimed, outcome⟩ :: after ∧
    Acceptance (before ++ .did (.caller caller) ⟨.arm, ticket⟩ :: since) since caller line outcome

/-- The line of an accepted command was written by its caller. -/
theorem AcceptedIn.own_mem {history : History} {caller : Nat} {line : String}
    (h : AcceptedIn history caller line) : .did (.caller caller) ⟨.write line, none⟩ ∈ history := by
  obtain ⟨before, since, after, ticket, limit, claimed, outcome, rfl, haccepted⟩ := h
  simp [haccepted.own]

/-- A success that a command waited for was delivered to it. -/
theorem Lived.exists_acceptance {session : Session} {history : History} {caller : Nat}
    (h : Lived False session history) {ticket limit : Nat} {claimed : Bool} {outcome : Outcome}
    (hmem : ⟨.awaitResult ticket limit claimed, outcome⟩ ∈ deedsOf (.caller caller) history)
    (hsuccess : outcome.isSuccess = true) : ∃ line, AcceptedIn history caller line := by
  rcases mem_deedsOf.mp hmem with hmem | hmem
  · obtain ⟨past, after, rfl⟩ := List.append_of_mem hmem
    obtain ⟨before, since, line, rfl, hquiet, hline, hown, hlast⟩ := h.returns rfl
    obtain ⟨earlier, -, hearlier, -⟩ := h.exists_effect rfl
    rcases hlast with hlast | ⟨-, rfl⟩
    · have hdelivered : outcome ∈ deliveries since := List.mem_of_getLast? hlast
      have hprinted :
          outcome ∈ answers (before ++ .did (.caller caller) ⟨.arm, ticket⟩ :: since) := by
        refine hearlier.mem_answers ?_
        rw [deliveries_append]
        exact List.mem_append_right _ hdelivered
      exact ⟨line, before, since, after, ticket, limit, claimed, outcome, rfl,
        { quiet := hquiet
          written := hline
          own := hown
          delivered := hlast
          printed := hprinted
          success := hsuccess }⟩
    · cases hsuccess
  -- whoever gives up gets no success
  · obtain ⟨past, after, rfl⟩ := List.append_of_mem hmem
    obtain ⟨earlier, state, -, heffect, -⟩ := h.exists_effect rfl
    cases heffect with
    | gaveUp hwait hgiveUp =>
        cases hgiveUp
        cases hsuccess

/-- If a caller writes only one line, its command for it was accepted exactly if the line was
written and the outcome that it waited for is a success. -/
theorem Lived.accepted_iff {session : Session} {history : History} {caller : Nat} {line : String}
    (h : Lived False session history)
    (hlines : ∀ text fault, ⟨.write text, fault⟩ ∈ deedsOf (.caller caller) history → text = line) :
    Accepted line (deedsOf (.caller caller) history) ↔ AcceptedIn history caller line := by
  constructor
  · rintro ⟨-, outcome, htaken, hsuccess⟩
    obtain ⟨⟨action, answer⟩, hmem, houtcome⟩ := List.mem_filterMap.mp htaken
    cases action with
    | awaitResult ticket limit claimed =>
        cases houtcome
        obtain ⟨text, haccepted⟩ := h.exists_acceptance hmem hsuccess
        obtain rfl : text = line := hlines text none (mem_deedsOf.mpr (.inl haccepted.own_mem))
        exact haccepted
    | _ => cases houtcome
  · rintro ⟨before, since, after, ticket, limit, claimed, outcome, rfl, haccepted⟩
    refine ⟨mem_deedsOf.mpr (.inl (by simp [haccepted.own])), outcome, ?_, haccepted.success⟩
    exact List.mem_filterMap.mpr ⟨⟨.awaitResult ticket limit claimed, outcome⟩,
      mem_deedsOf.mpr (.inl (by simp)), rfl⟩

end DebugBridge.Session
