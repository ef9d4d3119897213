import DebugBridge.Proofs.Session.Acceptance
import DebugBridge.Proofs.Session.Lines
import DebugBridge.Proofs.Session.Tenure

/-!
# Settings are given up to the first that fails

Settings are commands that are carried out one after the other, and there is an outcome for each of
them up to the first that is not a success.  A setting that was declined because the target executes
counts as a success, so it does not end the settings, and neither do those after it that are
declined too.

## Strategy

* `SettingDid` is what has become of one setting, and `SettingsDid` of a list of them, along the
  recursion that gives them (`set_yields`).
* A setting that is a success was declined, or it was written and answered; the answer is found at
  its place in the history (`Possible.answeredAt`).

## Main statements

* `settings_go_on_when_declined`: there can be outcomes for settings that were not written.
* `settings_stop_at_failure`: for which settings there are outcomes, and what stands behind each.
-/

namespace DebugBridge.Session

/-! ## One setting -/

/-- A command without arguments is its line. -/
theorem commandLine_nil (command : String) : commandLine command [] = command := by
  by_cases hempty : command = ""
  · subst hempty
    rfl
  · simp [commandLine, hempty]

theorem execute_eq (config : Config) (command : String) :
    execute config command = runCommand config command config.commandLimit := by
  rw [execute, commandLine_nil]

/-- What has been done for a setting, with its outcome. -/
inductive SettingDid (config : Config) (setting : String) :
    Outcome → List (Deed interface) → Prop
  /-- it was carried out as a command -/
  | carriedOut (granted : Bool) {way : Way} {outcome : Outcome} {tenure : List (Deed interface)}
      (hending : Ending config setting config.commandLimit way outcome tenure) :
      SettingDid config setting outcome
        (⟨.commandsEnabled, true⟩ :: ⟨.acquire none, granted⟩ :: (tenure ++ [⟨.release, ()⟩]))
  /-- commands are not possible, before the start or after the end -/
  | impossible (exited : Bool) :
      SettingDid config setting (if exited then .sessionExited else .notStarted)
        [⟨.commandsEnabled, false⟩, ⟨.isExited, exited⟩]

theorem setting_yields (config : Config) (setting : String) :
    (whenCommanded (execute config setting)).Yields (SettingDid config setting) := by
  intro enabled
  cases enabled with
  | true =>
      show (execute config setting).Yields _
      rw [execute_eq]
      refine (runCommand_ends config setting config.commandLimit).mono ?_
      rintro outcome _ ⟨granted, way, tenure, rfl, hending⟩
      exact .carriedOut granted hending
  | false =>
      intro exited
      cases exited with
      | true => exact .impossible true
      | false => exact .impossible false

section SettingDid

variable {config : Config} {setting : String} {outcome : Outcome} {deeds : List (Deed interface)}

/-- Only where commands and execution exclude each other, a setting is declined. -/
theorem SettingDid.of_declined (h : SettingDid config setting outcome deeds)
    (hdeclined : Declined deeds) : config.asyncMode = false ∧ outcome = .targetRunning := by
  obtain ⟨hclaim, hunwritten⟩ := hdeclined
  cases h with
  | impossible exited => simp at hclaim
  | carriedOut granted hending =>
      cases hending with
      | exited => simp at hclaim
      | rejected hsync => exact ⟨hsync, rfl⟩
      | unwritten ticket fault exited => exact absurd (by simp) (hunwritten setting (some fault))
      | waited ticket outcome => exact absurd (by simp) (hunwritten setting none)

/-- A setting that is a success was declined, or its command has waited for its result. -/
theorem SettingDid.of_success (h : SettingDid config setting outcome deeds)
    (hsuccess : outcome.isSuccess = true) : Declined deeds ∨
      ∃ first ticket limit claimed, deeds =
        first ++ [⟨.awaitResult ticket limit claimed, outcome⟩, ⟨.release, ()⟩] ∧
        ⟨.write setting, none⟩ ∈ first := by
  cases h with
  | impossible exited => cases exited <;> cases hsuccess
  | carriedOut granted hending =>
      cases hending with
      | exited => cases hsuccess
      | rejected => exact .inl ⟨by simp, by simp⟩
      | unwritten ticket fault exited => cases exited <;> cases hsuccess
      | waited ticket outcome =>
          refine .inr ⟨⟨.commandsEnabled, true⟩ :: ⟨.acquire none, granted⟩ ::
            (admission config ++ [⟨.arm, ticket⟩, ⟨.write setting, none⟩,
              ⟨.publish (.commandSent setting), ()⟩]), ticket, config.commandLimit,
            !config.asyncMode, by simp, by simp⟩

end SettingDid

/-! ## A list of settings -/

/-- What has been done for a list of settings, with their outcomes: they were carried out one after
the other, up to the first that is not a success. -/
inductive SettingsDid (config : Config) :
    List String → List Outcome → List (List (Deed interface)) → Prop
  | nil : SettingsDid config [] [] []
  | failed {setting : String} {outcome : Outcome} {deeds : List (Deed interface)}
      (settings : List String)
      (hsetting : (whenCommanded (execute config setting)).Leads deeds (.done outcome))
      (hfailed : outcome.isSuccess = false) :
      SettingsDid config (setting :: settings) [outcome] [deeds]
  | next {setting : String} {outcome : Outcome} {deeds : List (Deed interface)}
      {settings : List String} {outcomes : List Outcome} {others : List (List (Deed interface))}
      (hsetting : (whenCommanded (execute config setting)).Leads deeds (.done outcome))
      (hsuccess : outcome.isSuccess = true) (hrest : SettingsDid config settings outcomes others) :
      SettingsDid config (setting :: settings) (outcome :: outcomes) (deeds :: others)

theorem set_yields (config : Config) (settings : List String) :
    (Session.set config settings).Yields fun outcomes deeds =>
      ∃ parts : List (List (Deed interface)), deeds = parts.flatten ∧
        SettingsDid config settings outcomes parts := by
  induction settings with
  | nil => exact ⟨[], rfl, .nil⟩
  | cons setting rest ih =>
      refine (Program.yields_leads (whenCommanded (execute config setting))).bind ?_
      intro outcome first hsetting
      cases hsuccess : outcome.isSuccess with
      | true =>
          rw [if_pos rfl]
          refine ih.bind ?_
          rintro outcomes _ ⟨parts, rfl, hrest⟩
          exact ⟨first :: parts, by simp, .next hsetting hsuccess hrest⟩
      | false =>
          rw [if_neg (by simp)]
          exact ⟨[first], by simp, .failed rest hsetting hsuccess⟩

section SettingsDid

variable {config : Config} {settings : List String} {outcomes : List Outcome}
  {parts : List (List (Deed interface))}

/-- There are outcomes for the first settings. -/
theorem SettingsDid.length_le (h : SettingsDid config settings outcomes parts) :
    outcomes.length ≤ settings.length := by
  induction h with
  | nil => exact Nat.le_refl _
  | failed => simp
  | next hsetting hsuccess hrest ih => simpa using ih

/-- If all of them are successes, there is one for each setting. -/
theorem SettingsDid.length_eq (h : SettingsDid config settings outcomes parts)
    (hall : ∀ outcome ∈ outcomes, outcome.isSuccess = true) :
    outcomes.length = settings.length := by
  induction h with
  | nil => rfl
  | failed settings hsetting hfailed => simp [hfailed] at hall
  | next hsetting hsuccess hrest ih =>
      simpa using ih (List.forall_mem_cons.mp hall).2

/-- Nothing is written but the settings for which there are outcomes, each of them once at most. -/
theorem SettingsDid.handedOver_sublist (h : SettingsDid config settings outcomes parts) :
    (handedOver parts.flatten).Sublist (settings.take outcomes.length) := by
  have hone {setting : String} {outcome : Outcome} {deeds : List (Deed interface)}
      (hsetting : (whenCommanded (execute config setting)).Leads deeds (.done outcome)) :
      (handedOver deeds).Sublist [setting] := by
    rw [execute_eq] at hsetting
    exact whenCommanded_writes (runCommand_writes config setting _) deeds _ hsetting
  induction h with
  | nil => exact List.nil_sublist _
  | failed settings hsetting => simpa using hone hsetting
  | @next setting outcome deeds settings outcomes others hsetting hsuccess hrest ih =>
      rw [List.flatten_cons, handedOver_append, List.length_cons, List.take_succ_cons,
        ← List.singleton_append]
      exact (hone hsetting).append ih

/-- What stands behind an outcome. -/
theorem SettingsDid.exists_setting (h : SettingsDid config settings outcomes parts) {i : Nat}
    {outcome : Outcome} (houtcome : outcomes[i]? = some outcome) :
    ∃ setting deeds, settings[i]? = some setting ∧ parts[i]? = some deeds ∧
      SettingDid config setting outcome deeds ∧
      (i + 1 < outcomes.length → outcome.isSuccess = true) := by
  induction h generalizing i with
  | nil => cases houtcome
  | failed settings hsetting hfailed =>
      cases i with
      | zero =>
          cases houtcome
          exact ⟨_, _, rfl, rfl, (setting_yields config _).of_leads hsetting, by simp⟩
      | succ i => cases houtcome
  | next hsetting hsuccess hrest ih =>
      cases i with
      | zero =>
          cases houtcome
          exact ⟨_, _, rfl, rfl, (setting_yields config _).of_leads hsetting, fun _ => hsuccess⟩
      | succ i =>
          obtain ⟨setting, deeds, hat, hdeeds, hdid, hbefore⟩ := ih houtcome
          exact ⟨setting, deeds, hat, hdeeds, hdid, fun hlt => hbefore (by simpa using hlt)⟩

end SettingsDid

/-! ## In a run -/

/-- The command for a line was answered.  When its caller had done what is in `earlier`, it has done
`deeds` for the command: the line was written, and what the command has returned was delivered since
it armed the slot. -/
def AnsweredAt (history : History) (n : Nat) (earlier deeds : List (Deed interface))
    (line : String) (outcome : Outcome) : Prop :=
  ∃ first ticket limit claimed armed delivered returned,
    deeds = first ++ [⟨.awaitResult ticket limit claimed, outcome⟩, ⟨.release, ()⟩] ∧
    ⟨.write line, none⟩ ∈ first ∧
    deedsOf (.caller n) (history.take returned) = earlier ++ first ∧
    Handover history n outcome armed delivered returned

section Runs

variable {host : Host} {plan : Plan} {c : Chronicle host Request Reply} {n : Nat}

/-- Where a command has waited for a success, the success was delivered to it. -/
theorem Possible.answeredAt (h : Possible (Request.program plan) c)
    {earlier first later : List (Deed interface)} {line : String} {outcome : Outcome}
    {ticket limit : Nat} {claimed : Bool}
    (hdeeds : deedsOf (.caller n) c.history = earlier ++
      (first ++ [⟨.awaitResult ticket limit claimed, outcome⟩, ⟨.release, ()⟩]) ++ later)
    (hwritten : ⟨.write line, none⟩ ∈ first) (hsuccess : outcome.isSuccess = true) :
    AnsweredAt c.history n earlier
      (first ++ [⟨.awaitResult ticket limit claimed, outcome⟩, ⟨.release, ()⟩]) line outcome := by
  have hwait : deedsOf (.caller n) c.history = (earlier ++ first) ++
      ⟨.awaitResult ticket limit claimed, outcome⟩ :: ⟨.release, ()⟩ :: later := by simp [hdeeds]
  obtain ⟨past, occurrence, future, hhistory, hdeed, hpast, -⟩ := exists_split_of_deedsOf hwait
  -- whoever gives up gets no success
  obtain rfl := h.eq_did hhistory hdeed fun reaction state after hgiveUp => by
    cases hgiveUp
    cases hsuccess
  have hreturned : ReturnsAt c.history n ticket outcome past.length := by
    refine ⟨limit, claimed, ?_⟩
    rw [hhistory]
    simp
  rcases h.exists_handover (Request.disciplined plan) hreturned
      with rfl | ⟨armed, delivered, hover⟩
  · cases hsuccess
  · refine ⟨first, ticket, limit, claimed, armed, delivered, past.length, rfl, hwritten, ?_, hover⟩
    rw [hhistory, List.take_left, hpast]

end Runs

/-- A setting that was declined because the target executes does not end the settings: there is an
outcome for the next one too, though neither was written. -/
theorem settings_go_on_when_declined :
    ¬ ∀ (host : Host) (plan : Plan) (c : Chronicle host Request Reply),
      Possible (Request.program plan) c → ∀ n settings outcomes,
        c.requests[n]? = some (.operation (.set settings)) →
        c.system.value? n = some (.outcomes outcomes) → ∀ i setting, i + 1 < outcomes.length →
          settings[i]? = some setting → setting ∈ linesOf (deedsOf (.caller n) c.history) := by
  intro hclaim
  obtain ⟨c, hturns, hrequest, hvalue, hlines⟩ : ∃ c : Chronicle Host.blind Request Reply,
      Chronicle.turns? (Request.program Plan.plain) {} (List.flatten
        [[.request (.operation .startConnected)], Turn.acts 0 4, [.request (.line "*running")],
          Turn.acts 1 4, [.request (.operation (.set ["set a 1", "set b 2"]))], Turn.acts 2 12]) =
            some c ∧
      c.requests[2]? = some (.operation (.set ["set a 1", "set b 2"])) ∧
      c.system.value? 2 = some (Reply.outcomes [.targetRunning, .targetRunning]) ∧
      linesOf (deedsOf (.caller 2) c.history) = [] := ⟨_, rfl, rfl, rfl, rfl⟩
  have hwritten := hclaim _ _ c (Possible.fresh.turns _ hturns) 2 _ _ hrequest hvalue 0 "set a 1"
    (by decide) rfl
  rw [hlines] at hwritten
  cases hwritten

/-- Settings that have come to their outcomes were carried out one after the other, and nothing was
written but those for which there are outcomes.  Each of these but the last is a success, and there
is an outcome for every setting if all of them are.  A success was declined because the target
executes, and only where commands and execution exclude each other, or its line was written and it
was answered. -/
theorem settings_stop_at_failure (host : Host) (plan : Plan) (c : Chronicle host Request Reply)
    (h : Possible (Request.program plan) c) (n : Nat) (settings : List String) (reply : Reply)
    (hrequest : c.requests[n]? = some (.operation (.set settings)))
    (hreply : c.system.value? n = some reply) :
    ∃ outcomes parts, reply = .outcomes outcomes ∧
      deedsOf (.caller n) c.history = List.flatten parts ∧
      outcomes.length ≤ settings.length ∧
      ((∀ outcome ∈ outcomes, outcome.isSuccess = true) → outcomes.length = settings.length) ∧
      (handedOver (deedsOf (.caller n) c.history)).Sublist (settings.take outcomes.length) ∧
      ∀ i outcome, outcomes[i]? = some outcome → ∃ setting deeds,
        settings[i]? = some setting ∧ parts[i]? = some deeds ∧
        SettingDid plan.config setting outcome deeds ∧
        (i + 1 < outcomes.length → outcome.isSuccess = true) ∧
        (outcome.isSuccess = true → Declined deeds ∨
          AnsweredAt c.history n (parts.take i).flatten deeds setting outcome) ∧
        (Declined deeds → plan.config.asyncMode = false ∧ outcome = .targetRunning) := by
  have hyields : (Request.program plan (.operation (.set settings))).Yields fun reply deeds =>
      ∃ outcomes, reply = .outcomes outcomes ∧ ∃ parts : List (List (Deed interface)),
        deeds = parts.flatten ∧ SettingsDid plan.config settings outcomes parts :=
    (set_yields plan.config settings).map Reply.outcomes
  obtain ⟨outcomes, rfl, parts, hdeeds, hdid⟩ :=
    hyields.of_leads (h.leads_of_value hrequest hreply)
  refine ⟨outcomes, parts, rfl, hdeeds, hdid.length_le, hdid.length_eq,
    hdeeds ▸ hdid.handedOver_sublist, ?_⟩
  intro i outcome houtcome
  obtain ⟨setting, deeds, hsetting, hpart, hone, hbefore⟩ := hdid.exists_setting houtcome
  refine ⟨setting, deeds, hsetting, hpart, hone, hbefore, ?_, hone.of_declined⟩
  intro hsuccess
  rcases hone.of_success hsuccess
      with hdeclined | ⟨first, ticket, limit, claimed, rfl, hwritten⟩
  · exact .inl hdeclined
  · obtain ⟨hlt, hget⟩ := List.getElem?_eq_some_iff.mp hpart
    have hparts : parts = parts.take i ++ parts[i] :: parts.drop (i + 1) := by
      rw [List.getElem_cons_drop, List.take_append_drop]
    rw [hget] at hparts
    have hsplit : deedsOf (.caller n) c.history = (parts.take i).flatten ++
        (first ++ [⟨.awaitResult ticket limit claimed, outcome⟩, ⟨.release, ()⟩]) ++
        (parts.drop (i + 1)).flatten := by
      rw [hdeeds]
      simpa using congrArg List.flatten hparts
    exact .inr (h.answeredAt hsplit hwritten hsuccess)

/-- The second of three settings fails, and the third is not written. -/
theorem settings_stop_at_failure_of_error : ∃ c : Chronicle Host.blind Request Reply,
    Possible (Request.program Plan.plain) c ∧
      c.requests[1]? = some (.operation (.set ["set a 1", "set b 2", "set c 3"])) ∧
      ∃ outcomes, c.system.value? 1 = some (.outcomes outcomes) ∧
        outcomes.map Outcome.status = [.done, .error] ∧
        (handedOver (deedsOf (.caller 1) c.history)).Sublist ["set a 1", "set b 2"] ∧
        ∃ deeds outcome,
          AnsweredAt c.history 1 [] deeds "set a 1" outcome := by
  obtain ⟨c, hturns, hrequest, hvalue⟩ : ∃ c : Chronicle Host.blind Request Reply,
      Chronicle.turns? (Request.program Plan.plain) {} (List.flatten
        [[.request (.operation .startConnected)], Turn.acts 0 4,
          [.request (.operation (.set ["set a 1", "set b 2", "set c 3"]))], Turn.acts 1 7,
          [.request (.line "^done")], Turn.acts 2 4, Turn.acts 1 9,
          [.request (.line "^error")], Turn.acts 3 5, Turn.acts 1 2]) = some c ∧
      c.requests[1]? = some (.operation (.set ["set a 1", "set b 2", "set c 3"])) ∧
      c.system.value? 1 = some (Reply.outcomes
        [⟨.done, "^done", none⟩, ⟨.error, "^error", none⟩]) :=
    ⟨_, rfl, rfl, rfl⟩
  have h := Possible.fresh.turns _ hturns
  obtain ⟨outcomes, parts, hreply, -, -, -, hhanded, hone⟩ :=
    settings_stop_at_failure _ _ c h 1 _ _ hrequest hvalue
  cases hreply
  obtain ⟨setting, deeds, hsetting, -, -, -, hanswered, hdeclined⟩ := hone 0 _ rfl
  cases hsetting
  refine ⟨c, h, hrequest, _, hvalue, rfl, hhanded, deeds, _, (hanswered rfl).resolve_left ?_⟩
  intro hdecl
  cases (hdeclined hdecl).2

end DebugBridge.Session
