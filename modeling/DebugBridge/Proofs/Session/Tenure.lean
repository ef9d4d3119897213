import DebugBridge.Proofs.Session.Endings
import DebugBridge.Proofs.Session.Exit
import DebugBridge.Proofs.Session.Handover

/-!
# What a command leaves behind

A command has the gate to itself from the moment at which it is granted until it releases it.  In
this tenure it comes to its outcome in one of several ways, and whichever way it is, what comes
after finds the gate free and the slot empty, and where the command has claimed the target, it has
given the claim up if it has no answer to go by.

## Strategy

`tenures` is the protocol of callers that release the gate when the command they hold it for is
over, and claim the target only right after they were admitted.  Every request keeps to it
(`Request.tenures`), so each release in a run ends a tenure (`Possible.exists_tenure`).  Since no two
callers hold the gate at once, nobody else claims the target in the meantime
(`Possible.eq_of_claim`).

## Main statements

* `command_leaves_no_trace`: what a command has done when it is over, and what it leaves behind.
-/

namespace DebugBridge.Session

/-! ## The protocol -/

/-- The gate was granted, and this was done since. -/
def HeldSince (deeds tenure : List (Deed interface)) : Prop :=
  ∃ before bound granted, deeds = before ++ ⟨.acquire bound, granted⟩ :: tenure ∧
    (bound = none ∨ granted = true)

theorem HeldSince.append {deeds tenure : List (Deed interface)} (h : HeldSince deeds tenure)
    (more : List (Deed interface)) : HeldSince (deeds ++ more) (tenure ++ more) := by
  obtain ⟨before, bound, granted, rfl, hgranted⟩ := h
  exact ⟨before, bound, granted, by simp, hgranted⟩

/-- The command for which the gate was granted has come to its outcome. -/
def Concluded (config : Config) (deeds : List (Deed interface)) : Prop :=
  ∃ tenure line limit way outcome, HeldSince deeds tenure ∧
    Ending config line limit way outcome tenure

/-- The gate is released only when the command is over, and the target is claimed only by a command
that has just been admitted. -/
abbrev tenures (config : Config) : Protocol interface :=
  Protocol.ledger fun deeds action => (action = .release → Concluded config deeds) ∧
    (action = .claimTarget → ∃ exited, HeldSince deeds [⟨.isExited, exited⟩])

section Tenures

variable {β : Type} {config : Config} {deeds : List (Deed interface)}

/-- An action that neither releases the gate nor claims the target is permitted at any time. -/
theorem tenures_permits {action : Action} (hrelease : action ≠ .release)
    (hclaim : action ≠ .claimTarget) : (tenures config).Permits deeds action :=
  ⟨fun heq => absurd heq hrelease, fun heq => absurd heq hclaim⟩

theorem exchange_tenures (line : String) (limit : Nat) (claimed : Bool)
    (deeds : List (Deed interface)) :
    (exchange line limit claimed).Follows (tenures config) deeds fun _ _ => True := by
  have hexchanges : (exchange line limit claimed).OnlyDoes (Action.Exchanges (line = ·)) :=
    exchange_exchanges rfl limit claimed
  refine hexchanges.follows_of_forall ?_ _
  intro deeds action haction
  exact tenures_permits (by rintro rfl; exact haction) (by rintro rfl; exact haction)

/-- A command that was granted the gate claims the target in time, and is over in the end. -/
theorem admitted_tenures (line : String) (limit : Nat) (hsince : HeldSince deeds []) :
    (admitted config line limit).Follows (tenures config) deeds fun _ last =>
      Concluded config last := by
  have hpermitted : (admitted config line limit).Follows (tenures config) deeds
      fun _ _ => True := by
    refine ⟨tenures_permits nofun nofun, ?_⟩
    intro exited _
    cases exited with
    | true => trivial
    | false =>
        show Program.Follows _ (if config.asyncMode then _ else _ : Activity Outcome) _ _
        split
        · exact exchange_tenures line limit false _
        · refine ⟨⟨nofun, fun _ => ⟨false, hsince.append _⟩⟩, ?_⟩
          intro granted _
          cases granted with
          | true => exact exchange_tenures line limit true _
          | false => exact ⟨tenures_permits nofun nofun, fun _ _ => trivial⟩
  refine ((admitted_ends config line limit).follows_ledger hpermitted).mono ?_
  rintro outcome _ ⟨tenure, rfl, way, hending⟩
  exact ⟨tenure, line, limit, way, outcome, by simpa using hsince.append tenure, hending⟩

/-- The gate is released when the command is over. -/
theorem release_tenures (answer : Outcome → β) (line : String) (limit : Nat)
    (hsince : HeldSince deeds []) :
    (do let outcome ← admitted config line limit
        perform .release
        return answer outcome : Activity β).Follows (tenures config) deeds fun _ _ => True := by
  refine (admitted_tenures line limit hsince).bind ?_
  intro outcome last hconcluded
  exact ⟨⟨fun _ => hconcluded, nofun⟩, fun _ _ => trivial⟩

theorem runCommand_tenures (line : String) (limit : Nat) :
    (runCommand config line limit).Follows (tenures config) deeds fun _ _ => True := by
  refine ⟨tenures_permits nofun nofun, ?_⟩
  intro granted _
  exact release_tenures id line limit ⟨deeds, none, granted, rfl, .inl rfl⟩

theorem tryRunCommand_tenures (line : String) (limit : Nat) :
    (tryRunCommand config line limit).Follows (tenures config) deeds fun _ _ => True := by
  refine ⟨tenures_permits nofun nofun, ?_⟩
  intro granted _
  cases granted with
  | true => exact release_tenures some line limit ⟨deeds, some limit, true, rfl, .inr rfl⟩
  | false => trivial

theorem Operation.tenures (plan : Plan) (operation : Operation) :
    (operation.program plan).Follows (tenures plan.config) [] fun _ _ => True := by
  have hassembled : Assembled plan.config (fun _ => True) _ (operation.program plan) :=
    operation.assembled (fun _ _ => trivial) plan
  refine (hassembled.follows (Session.tenures plan.config) (fun _ => True) ?_ ?_ ?_ trivial).mono
    fun _ _ _ => trivial
  · intro deeds action _ haction
    refine ⟨tenures_permits ?_ ?_, fun _ => trivial⟩ <;> rintro rfl <;> exact haction
  · intro deeds line limit _
    exact (runCommand_tenures line limit).mono (by simp)
  · intro deeds line limit _
    exact (tryRunCommand_tenures line limit).mono (by simp)

theorem OnlyReports.tenures {program : Activity β} (h : OnlyReports program) (reply : Reply) :
    (program >>= fun _ => pure reply).Follows (tenures config) [] fun _ _ => True := by
  refine (h.follows_of_forall ?_ _).bind fun _ _ _ => trivial
  intro deeds action haction
  exact tenures_permits (by rintro rfl; exact haction) (by rintro rfl; exact haction)

theorem Request.tenures (plan : Plan) (request : Request) :
    (request.program plan).Follows (tenures plan.config) [] fun _ _ => True := by
  cases request with
  | operation operation => exact operation.tenures plan
  | result outcome => exact (onlyReports_handleResult outcome).tenures _
  | line text => exact (onlyReports_handleLine text).tenures _
  | ended => exact onlyReports_finish.tenures _

end Tenures

/-! ## Tenures in a run -/

/-- A caller was granted the gate for a command; `since` is what has happened from then on until the
command came to its outcome. -/
structure Tenure (config : Config) (past : History) (caller : Nat) (since : History) (line : String)
    (limit : Nat) (way : Way) (outcome : Outcome) : Prop where
  granted : ∃ earlier bound, past = earlier ++ .did (.caller caller) ⟨.acquire bound, true⟩ :: since
  ending : Ending config line limit way outcome (deedsOf (.caller caller) since)

/-- No output has said that the target executes: it is claimed by commands only. -/
def Unannounced (since : History) : Prop :=
  ∀ occurrence ∈ since, occurrence.Asserts →
    ∃ claimant, occurrence = .did claimant ⟨.claimTarget, true⟩

/-- A caller has given up waiting for its result. -/
def TimedOut (since : History) (caller : Nat) : Prop :=
  ∃ ticket limit claimed outcome,
    .gaveUp (.caller caller) ⟨.awaitResult ticket limit claimed, outcome⟩ ∈ since

/-- A command does not release the gate before it is over. -/
theorem Ending.ne_release {config : Config} {line : String} {limit : Nat} {way : Way}
    {outcome : Outcome} {deeds : List (Deed interface)}
    (h : Ending config line limit way outcome deeds) : ∀ deed ∈ deeds, deed.action ≠ .release := by
  cases h with
  | exited | rejected => simp
  | unwritten | waited => cases hmode : config.asyncMode <;> simp [admission, retreat, hmode]

section Runs

variable {host : Host} {plan : Plan} {c : Chronicle host Request Reply} {n : Nat}
  {past since future : History} {line : String} {limit : Nat} {way : Way} {outcome : Outcome}

/-- What is not given up was done. -/
theorem Possible.eq_did (h : Possible (Request.program plan) c) {occurrence : Occurrence}
    {actor : Actor} {deed : Deed interface} (hhistory : c.history = past ++ occurrence :: future)
    (hdeed : occurrence.deedOf? actor = some deed)
    (hfirm : ∀ reaction (state after : State),
      state.giveUp reaction deed.action ≠ some (after, deed.answer)) :
    occurrence = .did actor deed := by
  obtain ⟨earlier, after, -, -, heffect, -⟩ := h.exists_effect (Request.disciplined plan) hhistory
  cases heffect with
  | printed => cases hdeed
  | did hperform =>
      obtain ⟨rfl, rfl⟩ := by simpa [Occurrence.deedOf?] using hdeed
      rfl
  | gaveUp hwait hgiveUp =>
      obtain ⟨rfl, rfl⟩ := by simpa [Occurrence.deedOf?] using hdeed
      exact absurd hgiveUp (hfirm _ _ _)

/-- What callers have done was permitted at the time. -/
theorem Possible.tenures_permits (h : Possible (Request.program plan) c) {occurrence : Occurrence}
    {deed : Deed interface} (hhistory : c.history = past ++ occurrence :: future)
    (hdeed : occurrence.deedOf? (.caller n) = some deed) :
    (tenures plan.config).Permits (deedsOf (.caller n) past) deed.action := by
  have hkeeps : (tenures plan.config).Keeps [] (deedsOf (.caller n) c.history) :=
    h.keeps (fun r => ⟨_, r.tenures plan⟩) fun _ _ => trivial
  have hdeeds : deedsOf (.caller n) c.history =
      deedsOf (.caller n) past ++ deed :: deedsOf (.caller n) future := by
    rw [hhistory, deedsOf_append, deedsOf, deedsOf, deedsOf, List.filterMap_cons_some hdeed]
  rw [hdeeds] at hkeeps
  exact Protocol.permits_of_keeps hkeeps

/-- The gate was granted to whoever has not gone on without it. -/
theorem Possible.granted_of_heldSince (h : Possible (Request.program plan) c)
    (hhistory : c.history = past ++ future) {tenure : List (Deed interface)}
    (hsince : HeldSince (deedsOf (.caller n) past) tenure) :
    ∃ before bound, deedsOf (.caller n) past = before ++ ⟨.acquire bound, true⟩ :: tenure := by
  obtain ⟨before, bound, granted, hdeeds, hgranted⟩ := hsince
  have hadmits := h.admits (.caller n) ⟨.acquire bound, granted⟩ (by simp [hhistory, hdeeds])
  refine ⟨before, bound, ?_⟩
  rcases hgranted with rfl | rfl
  · cases hadmits
    exact hdeeds
  · exact hdeeds

/-- The release of the gate ends a tenure. -/
theorem Possible.exists_tenure (h : Possible (Request.program plan) c)
    (hhistory : c.history = past ++ .did (.caller n) ⟨.release, ()⟩ :: future) :
    ∃ since line limit way outcome, Tenure plan.config past n since line limit way outcome := by
  obtain ⟨tenure, line, limit, way, outcome, hsince, hending⟩ :=
    (h.tenures_permits hhistory (deedOf?_did ..)).1 rfl
  obtain ⟨before, bound, hdeeds⟩ := h.granted_of_heldSince hhistory hsince
  obtain ⟨earlier, occurrence, since, rfl, hdeed, -, rfl⟩ := exists_split_of_deedsOf hdeeds
  have hsplit : c.history = earlier ++ occurrence :: (since ++
      .did (.caller n) ⟨.release, ()⟩ :: future) := by simpa using hhistory
  obtain rfl := h.eq_did hsplit hdeed fun reaction state after hgiveUp => by
    cases bound <;> cases hgiveUp
  exact ⟨since, line, limit, way, outcome, ⟨earlier, bound, rfl⟩, hending⟩

/-- Until it releases the gate, a caller holds it. -/
theorem Tenure.holdsGate {config : Config} {first rest : History}
    (h : Tenure config past n (first ++ rest) line limit way outcome) :
    ∃ before, past = before ++ rest ∧ HoldsGate before n := by
  obtain ⟨earlier, bound, rfl⟩ := h.granted
  refine ⟨earlier ++ .did (.caller n) ⟨.acquire bound, true⟩ :: first, by simp, bound,
    deedsOf (.caller n) earlier, deedsOf (.caller n) first, by simp [deedsOf], ?_⟩
  intro deed hdeed
  exact h.ending.ne_release deed (by simp [hdeed])

/-- The target is claimed by the caller that holds the gate. -/
theorem Possible.eq_of_claim (h : Possible (Request.program plan) c) {claimant : Actor}
    {granted : Bool}
    (hhistory : c.history = past ++ .did claimant ⟨.claimTarget, granted⟩ :: future)
    (hholds : HoldsGate past n) : claimant = .caller n := by
  have hprogram := Request.disciplined plan
  by_cases hcaller : ∃ m, claimant = .caller m
  · obtain ⟨m, rfl⟩ := hcaller
    obtain ⟨exited, hsince⟩ := (h.tenures_permits hhistory (deedOf?_did ..)).2 rfl
    obtain ⟨before, bound, hdeeds⟩ := h.granted_of_heldSince hhistory hsince
    obtain ⟨earlier, -, hearlier, rfl, -, -⟩ := h.exists_effect hprogram hhistory
    have hother : HoldsGate earlier.history m := ⟨bound, before, _, hdeeds, by simp⟩
    rw [hearlier.holdsGate_unique hprogram hholds hother]
  -- who is no caller only reports
  · have hreports := h.reports (fun m heq => hcaller ⟨m, heq⟩) ⟨.claimTarget, granted⟩
      (by simp [hhistory, deedsOf])
    exact absurd hreports id

/-- Where commands and execution exclude each other, a command that has no answer to go by says in
its tenure that the target does not execute. -/
theorem Possible.exists_waiver (h : Possible (Request.program plan) c)
    (hhistory : c.history = past ++ future)
    (htenure : Tenure plan.config past n since line limit way outcome)
    (hsync : plan.config.asyncMode = false) (hway : way = .unwritten ∨ TimedOut since n) :
    ∃ first occurrence rest deed, since = first ++ occurrence :: rest ∧
      occurrence.deedOf? (.caller n) = some deed ∧ occurrence.verdict? = some false ∧
      ∀ exited, deed ≠ ⟨.isExited, exited⟩ := by
  obtain ⟨earlier, bound, rfl⟩ := htenure.granted
  have hending := htenure.ending
  rcases hway with rfl | ⟨ticket, duration, claimed, result, hmem⟩
  · have hmem : (⟨.setRunning false, ()⟩ : Deed interface) ∈ deedsOf (.caller n) since := by
      generalize deedsOf (.caller n) since = deeds at hending
      cases hending
      simp [retreat, hsync]
    obtain ⟨before, after, hdeeds⟩ := List.append_of_mem hmem
    obtain ⟨first, occurrence, rest, rfl, hdeed, -, -⟩ := exists_split_of_deedsOf hdeeds
    have hsplit : c.history = (earlier ++ .did (.caller n) ⟨.acquire bound, true⟩ :: first) ++
        occurrence :: (rest ++ future) := by simp [hhistory]
    obtain rfl := h.eq_did hsplit hdeed fun reaction state after hgiveUp => by cases hgiveUp
    exact ⟨first, _, rest, _, rfl, hdeed, rfl, by simp⟩
  · obtain ⟨first, rest, rfl⟩ := List.append_of_mem hmem
    have hwait : (⟨.awaitResult ticket duration claimed, result⟩ : Deed interface) ∈
        deedsOf (.caller n) (first ++
          .gaveUp (.caller n) ⟨.awaitResult ticket duration claimed, result⟩ :: rest) :=
      mem_deedsOf.mpr (.inr hmem)
    -- a command that waits has claimed the target
    have hclaimed : claimed = true := by
      generalize deedsOf (Actor.caller n) _ = deeds at hending hwait
      cases hending with
      | exited | rejected => simp at hwait
      | unwritten => simp [admission, retreat, hsync] at hwait
      | waited =>
          simp [admission, hsync] at hwait
          exact hwait.1.2.2
    refine ⟨first, _, rest, _, rfl, deedOf?_gaveUp .., ?_, by simp⟩
    simp [Occurrence.verdict?, hclaimed]

/-- In its tenure a command claims the target before everything but its look for the end. -/
theorem Tenure.not_claim {config : Config} {first middle last : History} {occurrence : Occurrence}
    {deed : Deed interface}
    (h : Tenure config past n (first ++ occurrence :: (middle ++
      .did (.caller n) ⟨.claimTarget, true⟩ :: last)) line limit way outcome)
    (hdeed : occurrence.deedOf? (.caller n) = some deed) :
    ∃ exited, deed = ⟨.isExited, exited⟩ := by
  have hdeeds : deedsOf (.caller n) (first ++ occurrence :: (middle ++
      .did (.caller n) ⟨.claimTarget, true⟩ :: last)) =
      (deedsOf (.caller n) first ++ deed :: deedsOf (.caller n) middle) ++
        ⟨.claimTarget, true⟩ :: deedsOf (.caller n) last := by
    simp [deedsOf, hdeed]
  obtain ⟨exited, hlook⟩ := h.ending.eq_of_claim hdeeds
  have hmem : deed ∈ deedsOf (.caller n) first ++ deed :: deedsOf (.caller n) middle := by simp
  rw [hlook] at hmem
  exact ⟨exited, List.mem_singleton.mp hmem⟩

/-- After a tenure without an answer the target is taken not to execute, unless output has said that
it does. -/
theorem Possible.isRunning_of_tenure (h : Possible (Request.program plan) c)
    (hhistory : c.history = past ++ [.did (.caller n) ⟨.release, ()⟩])
    (htenure : Tenure plan.config past n since line limit way outcome)
    (hsync : plan.config.asyncMode = false) (hway : way = .unwritten ∨ TimedOut since n)
    (hsince : Unannounced since) : c.session.state.core.isRunning = false := by
  obtain ⟨first, occurrence, rest, deed, rfl, hdeed, hverdict, hlook⟩ :=
    h.exists_waiver hhistory htenure hsync hway
  -- nothing that came after the waiver says that the target executes
  have hrest : ∀ other ∈ rest, other.verdict? ≠ some true := by
    intro other hmem hruns
    obtain ⟨middle, last, rfl⟩ := List.append_of_mem hmem
    have hparts : first ++ occurrence :: (middle ++ other :: last) =
        (first ++ occurrence :: middle) ++ other :: last := by simp
    obtain ⟨before, rfl, hholds⟩ := (hparts ▸ htenure).holdsGate
    have hsplit : c.history = before ++ other :: (last ++ [.did (.caller n) ⟨.release, ()⟩]) := by
      simp [hhistory]
    obtain ⟨claimant, rfl⟩ :=
      hsince other (by simp) (h.asserted (fun r => r.wary plan) hsplit hruns)
    obtain rfl := h.eq_of_claim hsplit hholds
    obtain ⟨exited, rfl⟩ := htenure.not_claim hdeed
    exact hlook exited rfl
  obtain ⟨earlier, bound, rfl⟩ := htenure.granted
  have hsplit : c.history = (earlier ++ .did (.caller n) ⟨.acquire bound, true⟩ :: first) ++
      occurrence :: (rest ++ [.did (.caller n) ⟨.release, ()⟩]) := by simp [hhistory]
  refine h.isRunning_of_verdict hsplit hverdict ?_
  exact List.forall_mem_append.mpr ⟨hrest, by simp [Occurrence.verdict?]⟩

/-! ## What is left behind -/

/-- A caller that releases the gate has left the slot, and no other caller holds the gate. -/
theorem Possible.legOf_of_release (h : Possible (Request.program plan) c)
    (hhistory : c.history = past ++ .did (.caller n) ⟨.release, ()⟩ :: future) (actor : Actor) :
    (legOf actor past).ticket? = none ∧
      legOf actor (past ++ [.did (.caller n) ⟨.release, ()⟩]) = .idle := by
  have hprogram := Request.disciplined plan
  obtain ⟨earlier, -, hearlier, rfl, -, hpermits⟩ := h.exists_effect hprogram hhistory
  have hleg := Leg.permits_release.mp (hpermits (.caller n) _ (deedOf?_did ..))
  have hbusy : legOf (.caller n) earlier.history ≠ .idle := by
    obtain hleg | hleg := hleg <;> simp [hleg]
  obtain ⟨hothers, -, -⟩ := (hearlier.orderly hprogram).of_not_idle hbusy
  by_cases hactor : .caller n = actor
  · subst hactor
    refine ⟨?_, by simp [Leg.after]⟩
    obtain hleg | hleg := hleg <;> rw [hleg] <;> rfl
  · rw [legOf_did_ne hactor, hothers actor hactor]
    exact ⟨rfl, rfl⟩

/-- Right after its release the gate is free, and no command is armed. -/
theorem Possible.free_of_release (h : Possible (Request.program plan) c)
    (hhistory : c.history = past ++ [.did (.caller n) ⟨.release, ()⟩]) :
    c.session.state.core.gateHeld = false ∧ c.session.state.core.slot.armed = none := by
  cases h.orderly (Request.disciplined plan) with
  | free _ hgate hslot => exact ⟨hgate, hslot⟩
  | held holder hholder =>
      rw [hhistory] at hholder
      exact absurd (h.legOf_of_release hhistory holder).2 hholder

/-- What is returned after the release of the gate was delivered to a command that has armed the
slot after it. -/
theorem Possible.handover_after_release (h : Possible (Request.program plan) c)
    (hhistory : c.history = past ++ .did (.caller n) ⟨.release, ()⟩ :: future)
    {caller ticket moment : Nat} {result : Outcome} (hmoment : past.length < moment)
    (hreturned : ReturnsAt c.history caller ticket result moment) :
    result = .sessionExited ∨ ∃ armed delivered, past.length < armed ∧
      Handover c.history caller result armed delivered moment := by
  have hprogram := Request.disciplined plan
  rcases h.exists_handover hprogram hreturned with rfl | ⟨armed, delivered, hover⟩
  · exact .inl rfl
  refine .inr ⟨armed, delivered, ?_, hover⟩
  obtain ⟨other, harmed, hmatched⟩ := hover.command
  rcases Nat.lt_trichotomy armed past.length with hlt | rfl | hgt
  -- the command would be in flight at the release
  · have hflight := h.inFlight_of_returns hprogram harmed hmatched hlt hmoment
    rw [hhistory, List.take_left] at hflight
    obtain ⟨earlier, -, hearlier, rfl, -, -⟩ := h.exists_effect hprogram hhistory
    have hticket := hearlier.ticket?_of_inFlight hprogram hflight
    rw [(h.legOf_of_release hhistory (.caller caller)).1] at hticket
    cases hticket
  · simp [ArmsAt, hhistory] at harmed
  · exact hgt

/-! ## Replies -/

/-- What a command has done that has answered. -/
theorem Possible.command_of_reply (h : Possible (Request.program plan) c) {reply : Reply}
    (hrequest : c.requests[n]? = some (.operation (.command line limit)))
    (hreply : c.system.value? n = some reply) :
    ∃ way outcome tenure, reply = .outcomes [outcome] ∧
      deedsOf (.caller n) c.history = ⟨.acquire none, true⟩ :: (tenure ++ [⟨.release, ()⟩]) ∧
      Ending plan.config line limit way outcome tenure := by
  have hyields : (Request.program plan (.operation (.command line limit))).Yields _ :=
    (runCommand_ends plan.config line limit).map fun outcome => Reply.outcomes [outcome]
  obtain ⟨outcome, rfl, granted, way, tenure, hdeeds, hending⟩ :=
    hyields.of_leads (h.leads_of_value hrequest hreply)
  have hadmits := h.admits (.caller n) ⟨.acquire none, granted⟩ (by simp [hdeeds])
  obtain rfl : granted = true := hadmits
  exact ⟨way, outcome, tenure, rfl, hdeeds, hending⟩

/-- What a command has done that has answered, and that may have done without the gate. -/
theorem Possible.tryCommand_of_reply (h : Possible (Request.program plan) c) {reply : Reply}
    (hrequest : c.requests[n]? = some (.operation (.tryCommand line limit)))
    (hreply : c.system.value? n = some reply) :
    (reply = .outcomes [] ∧ deedsOf (.caller n) c.history = [⟨.acquire (some limit), false⟩]) ∨
    ∃ way outcome tenure, reply = .outcomes [outcome] ∧
      deedsOf (.caller n) c.history =
        ⟨.acquire (some limit), true⟩ :: (tenure ++ [⟨.release, ()⟩]) ∧
      Ending plan.config line limit way outcome tenure := by
  have hyields : (Request.program plan (.operation (.tryCommand line limit))).Yields _ :=
    (tryRunCommand_ends plan.config line limit).map fun result => Reply.outcomes result.toList
  obtain ⟨result, rfl, ⟨rfl, hdeeds⟩ | ⟨outcome, way, tenure, rfl, hdeeds, hending⟩⟩ :=
    hyields.of_leads (h.leads_of_value hrequest hreply)
  · exact .inl ⟨rfl, hdeeds⟩
  · exact .inr ⟨way, outcome, tenure, rfl, hdeeds, hending⟩

end Runs

/-- Whoever releases the gate has held it for a command that has come to its outcome.  Right then
the gate is free and no command is armed, and nothing that was delivered before is returned later.  A
command that was not admitted has changed nothing and has published its rejection or nothing, and
only a command whose line was written is announced.  Where commands and execution exclude each
other, a command that has no answer to go by leaves the target free for the next one, unless output
has said that it executes.  That is all there is to a command which a caller has asked for. -/
theorem command_leaves_no_trace (host : Host) (plan : Plan) (c : Chronicle host Request Reply)
    (h : Possible (Request.program plan) c) :
    (∀ n past future, c.history = past ++ .did (.caller n) ⟨.release, ()⟩ :: future →
      ∃ since line limit way outcome, Tenure plan.config past n since line limit way outcome ∧
        Discreet line way outcome (deedsOf (.caller n) since) ∧
        (future = [] → c.session.state.core.gateHeld = false ∧
          c.session.state.core.slot.armed = none) ∧
        (∀ caller ticket result moment, past.length < moment →
          ReturnsAt c.history caller ticket result moment → result = .sessionExited ∨
            ∃ armed delivered, past.length < armed ∧
              Handover c.history caller result armed delivered moment) ∧
        (future = [] → plan.config.asyncMode = false → way = .unwritten ∨ TimedOut since n →
          Unannounced since → c.session.state.core.isRunning = false ∧
            c.session.state.core.claimTarget.2 = true)) ∧
    (∀ n line limit reply, c.requests[n]? = some (.operation (.command line limit)) →
      c.system.value? n = some reply → ∃ way outcome tenure, reply = .outcomes [outcome] ∧
        deedsOf (.caller n) c.history = ⟨.acquire none, true⟩ :: (tenure ++ [⟨.release, ()⟩]) ∧
        Ending plan.config line limit way outcome tenure ∧ Discreet line way outcome tenure) ∧
    (∀ n line limit reply, c.requests[n]? = some (.operation (.tryCommand line limit)) →
      c.system.value? n = some reply →
        (reply = .outcomes [] ∧
          deedsOf (.caller n) c.history = [⟨.acquire (some limit), false⟩]) ∨
        ∃ way outcome tenure, reply = .outcomes [outcome] ∧
          deedsOf (.caller n) c.history =
            ⟨.acquire (some limit), true⟩ :: (tenure ++ [⟨.release, ()⟩]) ∧
          Ending plan.config line limit way outcome tenure ∧
          Discreet line way outcome tenure) := by
  refine ⟨?_, ?_, ?_⟩
  · intro n past future hhistory
    obtain ⟨since, line, limit, way, outcome, htenure⟩ := h.exists_tenure hhistory
    refine ⟨since, line, limit, way, outcome, htenure, htenure.ending.discreet, ?_, ?_, ?_⟩
    · rintro rfl
      exact h.free_of_release hhistory
    · intro caller ticket result moment hmoment hreturned
      exact h.handover_after_release hhistory hmoment hreturned
    · rintro rfl hsync hway hsince
      have hrest := h.isRunning_of_tenure hhistory htenure hsync hway hsince
      exact ⟨hrest, by simp [Core.claimTarget, hrest]⟩
  · intro n line limit reply hrequest hreply
    obtain ⟨way, outcome, tenure, hresult, hdeeds, hending⟩ := h.command_of_reply hrequest hreply
    exact ⟨way, outcome, tenure, hresult, hdeeds, hending, hending.discreet⟩
  · intro n line limit reply hrequest hreply
    rcases h.tryCommand_of_reply hrequest hreply
        with hgone | ⟨way, outcome, tenure, hresult, hdeeds, hending⟩
    · exact .inl hgone
    · exact .inr ⟨way, outcome, tenure, hresult, hdeeds, hending, hending.discreet⟩

/-- After a command that nobody has answered in time, the gate is free and the next command is
admitted. -/
theorem command_leaves_no_trace_of_timeout : ∃ c : Chronicle Host.blind Request Reply,
    Possible (Request.program Plan.plain) c ∧
      c.system.value? 0 = some (.outcomes [.timedOut]) ∧
      c.session.state.core.gateHeld = false ∧ c.session.state.core.slot.armed = none ∧
      c.session.state.core.isRunning = false ∧ c.session.state.core.claimTarget.2 = true := by
  obtain ⟨c, hturns, hvalue, hhistory⟩ : ∃ c : Chronicle Host.blind Request Reply,
      Chronicle.turns? (Request.program Plan.plain) {} (List.flatten
        [[.request (.operation (.command "print x" 5))], Turn.acts 0 6, [.expire 0 none],
          Turn.acts 0 1]) = some c ∧
      c.system.value? 0 = some (Reply.outcomes [.timedOut]) ∧
      c.history = [.did (.caller 0) ⟨.acquire none, true⟩, .did (.caller 0) ⟨.isExited, false⟩,
        .did (.caller 0) ⟨.claimTarget, true⟩, .did (.caller 0) ⟨.arm, 1⟩,
        .did (.caller 0) ⟨.write "print x", none⟩,
        .did (.caller 0) ⟨.publish (.commandSent "print x"), ()⟩,
        .gaveUp (.caller 0) ⟨.awaitResult 1 5 true, .timedOut⟩] ++
          .did (.caller 0) ⟨.release, ()⟩ :: [] := ⟨_, rfl, rfl, rfl⟩
  have h := Possible.fresh.turns _ hturns
  obtain ⟨since, line, limit, way, outcome, htenure, -, hfree, -, hrest⟩ :=
    (command_leaves_no_trace _ _ c h).1 _ _ _ hhistory
  -- the only grant in this run is its first occurrence
  obtain ⟨earlier, bound, hgranted⟩ := htenure.granted
  obtain ⟨rfl, hsince⟩ : earlier = [] ∧ _ = since := by
    cases earlier with
    | nil => exact ⟨rfl, (List.cons.inj hgranted).2⟩
    | cons first others =>
        have hmem := congrArg (.did (.caller 0) ⟨.acquire bound, true⟩ ∈ ·)
          (List.cons.inj hgranted).2
        simp at hmem
  have htimedOut : TimedOut since 0 := ⟨1, 5, true, .timedOut, by simp [← hsince]⟩
  have hunannounced : Unannounced since := by
    rw [← hsince]
    intro occurrence hmem hasserts
    cases hasserts with
    | exec | result => simp at hmem
    | claim => exact ⟨_, rfl⟩
  exact ⟨c, h, hvalue, (hfree rfl).1, (hfree rfl).2, hrest rfl rfl (.inr htimedOut) hunannounced⟩

end DebugBridge.Session
