import DebugBridge.Proofs.Session.Closure
import DebugBridge.Proofs.Session.WarmUp

/-!
# A start by itself

A start on an idle session, with no other caller around.  The only parties besides it are those in
the background, which do what the debugger makes them do.

## Strategy

* What the start was answered is what had happened until then: whether a line was read
  (`Possible.answer_awaitOutput`), and whether the session had ended (`Possible.answer_isExited_iff`).
* `phaseSince` is the phase of a session that goes on, by what has happened since its start began.

## Main statements

* `start_succeeds_or_releases`: how a start ends, and how it leaves the session.
-/

namespace DebugBridge.Session

/-! ## What has been noted -/

/-- A line of the debugger was read. -/
def Heard (history : History) : Prop :=
  ∃ actor, .did actor ⟨.markHeard, ()⟩ ∈ history

/-- The session was ended. -/
def Ended (history : History) : Prop :=
  ∃ actor, .did actor ⟨.markExited, true⟩ ∈ history

theorem Effect.heard_iff {state after : State} {occurrence : Occurrence}
    (h : Effect state occurrence after) : after.core.execution.heard = true ↔
      state.core.execution.heard = true ∨ ∃ actor, occurrence = .did actor ⟨.markHeard, ()⟩ := by
  cases h with
  | @did actor reaction action answer next hperform =>
      rw [perform_core hperform]
      cases action with
      | markHeard => simp [Action.onCore, Core.markHeard]
      | beginStart | finishStart | markExited | deliver | claimTarget =>
          simp only [Action.onCore, Core.beginStart, Core.finishStart, Core.markExited,
            Core.deliver, Core.claimTarget]
          split <;> simp [Core.setRunning]
      | awaitResult ticket limit claimed =>
          simp only [Action.onCore, Core.collect?]
          split
          · simp
          · split <;> simp [Core.disarm]
      | _ => simp [Action.onCore, Core.setRunning, Core.applyExec, Core.noteResult, Core.release,
          Core.arm, Core.disarm]
  | @gaveUp actor reaction action answer next hwait hgiveUp =>
      cases action with
      | awaitResult ticket limit claimed =>
          cases hgiveUp
          cases claimed <;> simp [State.onCore, Core.abandon, Core.disarm]
      | _ =>
          rw [giveUp_core hgiveUp (by simp)]
          simp
  | printed hcore =>
      rw [hcore]
      simp

theorem Effect.isExited_iff {state after : State} {occurrence : Occurrence}
    (h : Effect state occurrence after) : after.core.isExited = true ↔
      state.core.isExited = true ∨ ∃ actor, occurrence = .did actor ⟨.markExited, true⟩ := by
  cases h with
  | @did actor reaction action answer next hperform =>
      by_cases hends : action = .markExited
      · subst hends
        simp only [State.perform, State.askCore, Core.markExited] at hperform
        split at hperform <;> cases hperform
        · rename_i hexited
          simp [Core.isExited, hexited]
        · simp [Core.isExited]
      · rw [perform_isExited hends hperform]
        refine (or_iff_left ?_).symm
        rintro ⟨_, heq⟩
        cases heq
        exact hends rfl
  | gaveUp hwait hgiveUp =>
      rw [giveUp_isExited hgiveUp]
      simp
  | printed hcore =>
      rw [hcore]
      simp

section Runs

variable {host : Host} {ρ α : Type} {program : ρ → Activity α} {c : Chronicle host ρ α}

/-- What is noted for good, when certain things happen, is so exactly if one of them has happened. -/
theorem Possible.noted_iff (h : Possible program c) (noted : Core → Prop)
    (notes : Actor → Occurrence) (hfresh : ¬ noted {})
    (hstep : ∀ {state after : State} {occurrence : Occurrence}, Effect state occurrence after →
      (noted after.core ↔ noted state.core ∨ ∃ actor, occurrence = notes actor)) :
    noted c.session.state.core ↔ ∃ actor, notes actor ∈ c.history := by
  refine h.of_effect (fun core history => noted core ↔ ∃ actor, notes actor ∈ history)
    (by simpa using hfresh) ?_
  intro c next occurrence _ _ _ heffect hbefore
  rw [hstep heffect, hbefore]
  constructor
  · rintro (⟨actor, hmem⟩ | ⟨actor, rfl⟩)
    · exact ⟨actor, List.mem_append_left _ hmem⟩
    · exact ⟨actor, by simp⟩
  · rintro ⟨actor, hmem⟩
    rcases List.mem_append.mp hmem with hmem | hmem
    · exact .inl ⟨actor, hmem⟩
    · exact .inr ⟨actor, (List.mem_singleton.mp hmem).symm⟩

theorem Possible.heard_iff (h : Possible program c) :
    c.session.state.core.execution.heard = true ↔ Heard c.history :=
  h.noted_iff (fun core => core.execution.heard = true) _ (by decide) Effect.heard_iff

theorem Possible.isExited_iff (h : Possible program c) :
    c.session.state.core.isExited = true ↔ Ended c.history :=
  h.noted_iff (fun core => core.isExited = true) _ (by decide) Effect.isExited_iff

section Answers

variable {past future : History} {occurrence : Occurrence} {actor : Actor}

/-- Who looks for the end of the session is told whether it has ended until then. -/
theorem Possible.answer_isExited_iff (h : Possible program c)
    (hhistory : c.history = past ++ occurrence :: future) {exited : Bool}
    (hdeed : occurrence.deedOf? actor = some ⟨.isExited, exited⟩) :
    exited = true ↔ Ended past := by
  obtain ⟨earlier, later, hmoment, rfl, hlater⟩ := h.exists_moment hhistory
  rw [← hmoment.possible.isExited_iff, (hmoment.effect hlater).answer_isExited hdeed]

end Answers

/-- Who connects a session, or launches a debugger for it, leaves it connected. -/
theorem connected_of_perform {reaction : Option Fault} {state after : State}
    {link : Deed interface} (hlink : link = ⟨.connect, ()⟩ ∨ link = ⟨.launch, none⟩)
    (hperform : state.perform reaction link.action = some (after, link.answer)) :
    after.wire.connected = true := by
  rcases hlink with rfl | rfl
  · cases hperform
    rfl
  · cases reaction <;> cases hperform
    rfl

/-- A session that was connected to a debugger, or has launched one, remains connected. -/
theorem Possible.connected (h : Possible program c) (hprogram : ∀ r, Dutiful (program r))
    {actor : Actor} {link : Deed interface} (hlink : link = ⟨.connect, ()⟩ ∨ link = ⟨.launch, none⟩)
    (hlinked : link ∈ deedsOf actor c.history) : c.session.state.wire.connected = true := by
  have hmilestone : link.action.IsMilestone := by
    rcases hlink with rfl | rfl <;> trivial
  obtain ⟨past, future, hhistory⟩ :=
    List.append_of_mem (h.did_of_mem_deedsOf hlinked hmilestone)
  obtain ⟨earlier, later, hmoment, rfl, hlater⟩ := h.exists_moment hhistory
  refine hmoment.of_passage hprogram (fun state _ => state.wire.connected = true) ?_
    fun hpassage => hpassage.connected
  cases hmoment.effect hlater with
  | did hperform => exact connected_of_perform hlink hperform

/-! ## The phase since the start began -/

/-- The execution record that is taken into account. -/
def Occurrence.exec? : Occurrence → Option AsyncRecord
  | .did _ ⟨.applyExec record, _⟩ => some record
  | _ => none

/-- Whether a start ends. -/
def Occurrence.endsStart : Occurrence → Bool
  | .did _ ⟨.finishStart, _⟩ => true
  | _ => false

/-- The phase of a session that goes on, when this has happened since its start began: the last
execution record decides, and without one it is ready as soon as the start has ended. -/
def phaseSince (since : History) : Phase :=
  match (since.filterMap Occurrence.exec?).getLast? with
  | some record => if record.isRunning then .running else .stopped
  | none => if since.any Occurrence.endsStart then .ready else .starting

theorem phaseSince_concat_of_exec {occurrence : Occurrence} {record : AsyncRecord}
    (h : occurrence.exec? = some record) (since : History) :
    phaseSince (since ++ [occurrence]) = if record.isRunning then .running else .stopped := by
  simp [phaseSince, h]

theorem phaseSince_concat_of_aside {occurrence : Occurrence} (hexec : occurrence.exec? = none)
    (hends : occurrence.endsStart = false) (since : History) :
    phaseSince (since ++ [occurrence]) = phaseSince since := by
  simp [phaseSince, hexec, hends]

theorem phaseSince_concat_of_endsStart {occurrence : Occurrence} (hexec : occurrence.exec? = none)
    (hends : occurrence.endsStart = true) (since : History) :
    phaseSince (since ++ [occurrence]) =
      if phaseSince since = .starting then .ready else phaseSince since := by
  unfold phaseSince
  simp only [List.filterMap_append, List.filterMap_cons_none hexec, List.filterMap_nil,
    List.append_nil, List.any_append, List.any_cons, hends, List.any_nil, Bool.or_false,
    Bool.or_true, if_true]
  split
  · split <;> simp
  · split <;> simp

theorem phaseSince_ne_idle (since : History) : phaseSince since ≠ .idle := by
  unfold phaseSince
  split
  · split <;> simp
  · split <;> simp

/-- What happens to the phase of a session that goes on. -/
theorem Effect.phase_since {state after : State} {occurrence : Occurrence} {since : History}
    (h : Effect state occurrence after) (hagrees : state.core.Agrees)
    (hgoesOn : after.core.isExited = false) (hphase : state.core.phase = phaseSince since) :
    after.core.phase = phaseSince (since ++ [occurrence]) := by
  have hbefore : state.core.phase ≠ .exited := by
    intro hexited
    have hended : state.core.isExited = true := hagrees.trans (by simp [hexited])
    rw [(h.hasEnded (hagrees.hasEnded hended)).isExited] at hgoesOn
    cases hgoesOn
  rw [h.phase_eq, hphase]
  cases occurrence with
  | gaveUp | happened => exact (phaseSince_concat_of_aside rfl rfl since).symm
  | did actor deed =>
      obtain ⟨action, answer⟩ := deed
      cases action with
      | beginStart =>
          obtain rfl : answer = false := by
            cases h with
            | did hperform =>
                simp only [State.perform, State.askCore, Core.beginStart] at hperform
                split at hperform <;> cases hperform
                · rename_i hidle
                  exact absurd (hphase.symm.trans hidle) (phaseSince_ne_idle since)
                · rfl
          exact (phaseSince_concat_of_aside rfl rfl since).symm
      | finishStart =>
          have hkept : answer = true ↔ phaseSince since = .starting := by
            rw [← hphase]
            cases h with
            | did hperform =>
                simp only [State.perform, State.askCore, Core.finishStart] at hperform
                split at hperform <;> cases hperform
                · exact iff_of_true rfl ‹_›
                · exact iff_of_false (by simp) ‹_›
          rw [phaseSince_concat_of_endsStart rfl rfl]
          simp [Occurrence.phaseAfter, hkept]
      | markExited =>
          obtain rfl : answer = false := by
            cases answer with
            | false => rfl
            | true =>
                have hended := h.isExited_iff.mpr (.inr ⟨actor, rfl⟩)
                rw [hgoesOn] at hended
                cases hended
          exact (phaseSince_concat_of_aside rfl rfl since).symm
      | applyExec record =>
          rw [phaseSince_concat_of_exec rfl]
          exact if_neg (hphase ▸ hbefore)
      | _ => exact (phaseSince_concat_of_aside rfl rfl since).symm

/-- The phase of a session that goes on is what has happened since its start began makes of it. -/
theorem Possible.phase_since (h : Possible program c) {past since : History} {actor : Actor}
    (hhistory : c.history = past ++ .did actor ⟨.beginStart, true⟩ :: since)
    (hgoesOn : c.session.state.core.isExited = false) :
    c.session.state.core.phase = phaseSince since := by
  refine h.of_effect (fun core history => core.isExited = false → ∀ since,
    history = past ++ .did actor ⟨.beginStart, true⟩ :: since →
      core.phase = phaseSince since) (by simp) ?_ hgoesOn since hhistory
  intro c next occurrence h _ _ heffect hbefore hgoesOn since hhistory
  rcases List.eq_nil_or_concat since with rfl | ⟨init, last, rfl⟩
  -- the start begins
  · obtain ⟨-, hlast⟩ := List.append_inj' hhistory rfl
    cases hlast
    rw [heffect.phase_eq]
    rfl
  · rw [List.concat_eq_append, ← List.cons_append, ← List.append_assoc] at hhistory
    obtain ⟨hearlier, hlast⟩ := List.append_inj' hhistory rfl
    cases hlast
    rw [List.concat_eq_append]
    refine heffect.phase_since h.agrees hgoesOn (hbefore ?_ init hearlier)
    cases hexited : c.session.state.core.isExited with
    | false => rfl
    | true =>
        rw [heffect.isExited_iff.mpr (.inl hexited)] at hgoesOn
        cases hgoesOn

end Runs

/-! ## A start with no other caller -/

/-- A session on which a caller starts, all others having their answers. -/
structure Chronicle.StartsAlone {host : Host} (c : Chronicle host Request Reply) (n : Nat) :
    Prop where
  length_eq : c.requests.length = n + 1
  request : c.requests[n]? = some (.operation .startConnected)
  others : ∀ m < n, (c.system.value? m).isSome

section Alone

variable {host : Host} {plan : Plan} {c next : Chronicle host Request Reply} {n : Nat}

theorem Chronicle.StartsAlone.of_turn? (h : c.StartsAlone n) {turn : Turn Request}
    (hquiet : turn.request? = none) (hturn : c.turn? (Request.program plan) turn = some next) :
    next.StartsAlone n := by
  have hsame : next.requests = c.requests := by
    simp [Chronicle.requests_of_turn? hturn, hquiet]
  have hone : c.turns? (Request.program plan) [turn] = some next :=
    Chronicle.turns?_singleton.trans hturn
  exact ⟨hsame ▸ h.length_eq, hsame ▸ h.request, fun m hm =>
    Chronicle.isSome_of_turns? hone (h.others m hm)⟩

/-- Only the caller that starts is still at something. -/
theorem Chronicle.StartsAlone.eq_of_act (h : c.StartsAlone n)
    (hpossible : Possible (Request.program plan) c) {m : Nat} {action : Action}
    {rest : action.Answer → Activity Reply}
    (hcaller : c.system.callers[m]? = some (.act action rest)) : m = n := by
  have hlt : m < c.system.callers.length := (List.getElem?_eq_some_iff.mp hcaller).1
  rw [← hpossible.accounted.length_eq, h.length_eq] at hlt
  refine Classical.byContradiction fun hne => ?_
  have hdone := h.others m (by omega)
  rw [System.value?_of_act hcaller] at hdone
  cases hdone

/-- The start finds the session as it was, idle. -/
theorem Possible.begins (h : Possible (Request.program plan) c) (halone : c.StartsAlone n)
    (hnone : deedsOf (.caller n) c.history = []) (hidle : c.session.state.core.phase = .idle)
    {turn : Turn Request} (hquiet : turn.request? = none)
    (hturn : c.turn? (Request.program plan) turn = some next) :
    deedsOf (.caller n) next.history = [] ∧ next.session.state.core.phase = .idle ∨
      deedsOf (.caller n) next.history = [⟨.beginStart, true⟩] := by
  have hunconnected : c.session.state.wire.connected = false := by
    cases h.standing (Request.dutiful plan) with
    | apart _ hholdings =>
        obtain ⟨-, hconnected, -⟩ := Holdings.mk.inj hholdings
        exact hconnected
    | inUse _ hphase | released _ hphase | busy _ _ _ hphase => exact absurd hidle hphase
  obtain ⟨hreader, hwatcher, -⟩ := h.dormant (Request.dutiful plan) hunconnected
  obtain ⟨rest, hcaller, hleads⟩ := h.leads_of_request halone.request
  rw [hnone] at hleads
  have hfirst {m : Nat} {action : Action} {following : action.Answer → Activity Reply}
      (hact : c.system.callers[m]? = some (.act action following)) :
      m = n ∧ action = .beginStart := by
    obtain rfl := halone.eq_of_act h hact
    obtain rfl : rest = Program.act action following := Option.some.inj (hcaller.symm.trans hact)
    refine ⟨rfl, ?_⟩
    rcases Program.leads_act.mp hleads with ⟨-, heq⟩ | ⟨_, _, hdeeds, -⟩
    · cases heq
      rfl
    · cases hdeeds
  cases Chronicle.change_of_turn? hturn with
  | request =>
      have hlength := (halone.of_turn? hquiet hturn).length_eq
      simp [halone.length_eq] at hlength
  | router | close | reportGone => exact .inl ⟨hnone, hidle⟩
  | print channel chunk =>
      refine .inl ⟨?_, ?_⟩
      · rw [deedsOf_append, hnone, deedsOf_happened]
        rfl
      · cases channel <;> exact hidle
  | @act m reaction action following state answer hact hperform =>
      obtain ⟨rfl, rfl⟩ := hfirst hact
      simp only [State.perform, State.askCore, Core.beginStart, if_pos hidle] at hperform
      cases hperform
      exact .inr (by simp [hnone])
  | expire hact hwait hgiveUp =>
      obtain ⟨rfl, rfl⟩ := hfirst hact
      cases hgiveUp
  | @reader channel action rest state answer htask =>
      rw [hreader channel] at htask
      cases htask
  | read htask hread hconnected =>
      rw [hunconnected] at hconnected
      cases hconnected
  | watcher htask =>
      rw [hwatcher] at htask
      cases htask

/-- Whatever the start has done, it has begun with an idle session. -/
theorem Possible.begun (h : Possible (Request.program plan) c) (halone : c.StartsAlone n)
    (hnone : deedsOf (.caller n) c.history = []) (hidle : c.session.state.core.phase = .idle)
    {turns : List (Turn Request)} (hquiet : ∀ turn ∈ turns, turn.request? = none)
    (hturns : c.turns? (Request.program plan) turns = some next) :
    next.StartsAlone n ∧
      (deedsOf (.caller n) next.history = [] ∧ next.session.state.core.phase = .idle ∨
        ∃ rest, deedsOf (.caller n) next.history = ⟨.beginStart, true⟩ :: rest) := by
  refine (h.preserved hturns (fun c => c.StartsAlone n ∧
    (deedsOf (.caller n) c.history = [] ∧ c.session.state.core.phase = .idle ∨
      ∃ rest, deedsOf (.caller n) c.history = ⟨.beginStart, true⟩ :: rest))
    ⟨halone, .inl ⟨hnone, hidle⟩⟩ ?_).2
  rintro c next turn hmem h hturn ⟨halone, ⟨hnone, hidle⟩ | ⟨rest, hdeeds⟩⟩
  · refine ⟨halone.of_turn? (hquiet turn hmem) hturn, ?_⟩
    exact (h.begins halone hnone hidle (hquiet turn hmem) hturn).imp_right fun hbegun => ⟨[], hbegun⟩
  · refine ⟨halone.of_turn? (hquiet turn hmem) hturn, .inr ?_⟩
    rcases (Chronicle.change_of_turn? hturn).effect with ⟨hsame, -⟩ | ⟨occurrence, hlast, -⟩
    · exact ⟨rest, hsame ▸ hdeeds⟩
    · rw [hlast, deedsOf_append, hdeeds]
      exact ⟨_, rfl⟩

end Alone

/-! ## Main result -/

section Ends

variable {host : Host} {plan : Plan} {c : Chronicle host Request Reply} {n : Nat}
  {opening warming closing : List (Deed interface)}

/-- A start that has stopped the session again leaves it over. -/
theorem Possible.over_of_start (h : Possible (Request.program plan) c)
    (hstop : (stop plan.config).Leads closing (.done ())) (before middle : List (Deed interface))
    (hdeeds : deedsOf (.caller n) c.history =
      before ++ ⟨.enableCommands, ()⟩ :: (middle ++ closing)) :
    Over c.session.state c.history := by
  obtain ⟨⟨allowed, hallowed⟩, ended, hended⟩ := (stop_yields plan.config).of_leads hstop
  obtain ⟨first, rest, rfl⟩ := List.append_of_mem hallowed
  have hforbidden : deedsOf (.caller n) c.history =
      (before ++ ⟨.enableCommands, ()⟩ :: (middle ++ first)) ++
        ⟨.disableCommands, allowed⟩ :: rest := by simp [hdeeds]
  have hmarked : ⟨.markExited, ended⟩ ∈ deedsOf (.caller n) c.history := by
    rw [hdeeds]
    exact List.mem_append_right _ (List.mem_cons_of_mem _ (List.mem_append_right _ hended))
  exact
    { hasEnded := h.hasEnded_of_markExited (h.did_of_mem_deedsOf hmarked trivial)
      shut := h.shut_of_forbidden (Request.dutiful plan) hforbidden
        (by simp : (⟨.enableCommands, ()⟩ : Deed interface) ∈ _) }

end Ends

/-- How a start that has succeeded leaves the session.  As long as it goes on, the last execution
record since the start began decides on its phase; and if it has ended, the start has looked for the
end before each of its commands, and never after it. -/
structure InUse {host : Host} (c : Chronicle host Request Reply) (n : Nat) : Prop where
  phase : ∃ past since, c.history = past ++ .did (.caller n) ⟨.beginStart, true⟩ :: since ∧
    (c.session.state.core.phase ≠ .exited → c.session.state.core.phase =
      (since.filterMap Occurrence.exec?).getLast?.elim .ready fun record =>
        if record.isRunning then .running else .stopped)
  ended : ∀ (past since : History) ender,
    c.history = past ++ .did ender ⟨.markExited, true⟩ :: since →
    ∀ deed ∈ deedsOf (.caller n) since, deed.action ≠ .isExited

section Ends

variable {host : Host} {plan : Plan} {c : Chronicle host Request Reply} {n : Nat}

theorem Possible.inUse (h : Possible (Request.program plan) c)
    {kept : Bool} {rest : List (Deed interface)}
    (hdeeds : deedsOf (.caller n) c.history = ⟨.beginStart, true⟩ :: rest)
    (hends : ⟨.finishStart, kept⟩ ∈ deedsOf (.caller n) c.history)
    (hlooks : (⟨.isExited, true⟩ : Deed interface) ∉ deedsOf (.caller n) c.history) :
    InUse c n := by
  constructor
  · have hbegun : deedsOf (.caller n) c.history = [] ++ ⟨.beginStart, true⟩ :: rest := hdeeds
    obtain ⟨past, since, hhistory, hpast, -⟩ := h.exists_did hbegun fun _ _ => rfl
    refine ⟨past, since, hhistory, fun hgoesOn => ?_⟩
    have hexited : c.session.state.core.isExited = false := by
      refine Eq.trans h.agrees ?_
      simpa using hgoesOn
    have hfinished : since.any Occurrence.endsStart = true := by
      obtain ⟨first, final, hlast⟩ := List.append_of_mem hends
      obtain ⟨before, after, hsplit, -⟩ := h.exists_did hlast fun _ _ => rfl
      have hmem : .did (.caller n) ⟨.finishStart, kept⟩ ∈
          past ++ .did (.caller n) ⟨.beginStart, true⟩ :: since := by
        rw [← hhistory, hsplit]
        simp
      rcases List.mem_append.mp hmem with hmem | hmem
      · have hearlier := mem_deedsOf.mpr (.inl hmem)
        rw [hpast] at hearlier
        cases hearlier
      · exact List.any_eq_true.mpr ⟨_, (List.mem_cons.mp hmem).resolve_left nofun, rfl⟩
    rw [h.phase_since hhistory hexited, phaseSince, hfinished]
    cases (since.filterMap Occurrence.exec?).getLast? <;> rfl
  · intro past since ender hhistory deed hdeed hlook
    obtain ⟨action, answer⟩ := deed
    obtain rfl : action = .isExited := hlook
    cases answer with
    | true =>
        refine hlooks ?_
        rw [hhistory, deedsOf_append, ← List.singleton_append, deedsOf_append]
        exact List.mem_append_right _ (List.mem_append_right _ hdeed)
    | false =>
        have hsplit : c.history = past ++ .did ender ⟨.markExited, true⟩ :: since ++ [] := by
          simpa using hhistory
        exact h.not_mem_deedsOf hsplit _ hdeed

end Ends

section Requests

variable {host : Host} {plan : Plan} {before c : Chronicle host Request Reply} {n : Nat}

/-- With the start, every request has its answer. -/
theorem Chronicle.StartsAlone.isSome_value? (halone : c.StartsAlone n)
    (hvalue : (c.system.value? n).isSome) {m : Nat} {request : Request}
    (hrequest : c.requests[m]? = some request) : (c.system.value? m).isSome := by
  have hlt := (List.getElem?_eq_some_iff.mp hrequest).1
  rw [halone.length_eq] at hlt
  rcases Nat.lt_succ_iff_lt_or_eq.mp hlt with hlt | rfl
  · exact halone.others m hlt
  · exact hvalue

theorem Possible.startDid (h : Possible (Request.program plan) c) (halone : c.StartsAlone n)
    {reply : Reply} (hreply : c.system.value? n = some reply) :
    ∃ result, reply = .started result ∧
      StartDid plan result (deedsOf (.caller n) c.history) := by
  have hyields : (Request.program plan (.operation .startConnected)).Yields fun reply deeds =>
      ∃ result, reply = .started result ∧ StartDid plan result deeds := by
    refine (startConnected_yields plan).bind ?_
    intro result deeds hdid
    exact ⟨result, rfl, by simpa using hdid⟩
  exact hyields.of_leads (h.leads_of_value halone.request hreply)

end Requests

/-- The debugger prints a line, and the reader deals with it in these many steps. -/
def Turn.prints {ρ : Type} (text : String) (steps : Nat) : List (Turn ρ) :=
  .happen (.print .output (.line text)) ::
    List.replicate steps (.happen (.advance (.reader .output)))

end DebugBridge.Session
