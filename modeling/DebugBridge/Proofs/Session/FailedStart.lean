import DebugBridge.Proofs.Session.Announcement
import DebugBridge.Proofs.Session.Distribution
import DebugBridge.Proofs.Session.Lifecycle

/-!
# What is left of a start that has failed

A start that has begun can fail at three points: no debugger can be launched, the debugger prints
nothing in time, or it does not accept a command of the warm-up.  Behind the last two the session is
stopped, and behind the first one it is only ended.  All of them leave a session that is over.  The
end is announced to everybody who listened before the start, once, as that of any session is; but a
start that ends the session because it could not launch a debugger does so without a word.

## Strategy

* `Launched` says at which point a start has failed.  Where it has stopped the session again,
  `over_of_start` says that the session is over; where it could not launch a debugger,
  `shut_of_refused` does.
* Once the end was announced, or somebody owes that, this does not change (`Heralded.of_passage`);
  and once the session has ended and nobody does, this does not change either
  (`EndedSilently.of_passage`).  So it is enough to look at one moment: the one at which the start
  that could not launch a debugger ended the session, or found it ended.
* A listener that has stayed has heard what was published since it came, once everything was handed
  on; and nothing was announced before the start (`Listens.count_received`).

## Main statements

* `Possible.left_of_unlaunched`: what is left when no debugger could be launched.
* `failed_start_ends_session`: what is left of any start that has failed.
* `end_untold_after_launch`: nobody is told of the end when no debugger could be launched.
-/

namespace DebugBridge.Session

/-! ## Whether the end is announced -/

/-- The end of the session was announced, or somebody owes that. -/
def Heralded (history : History) : Prop :=
  (∃ actor, (dutyOf actor history).Heralds) ∨ 0 < announcements history

/-- The session has ended, nobody has announced that, and nobody owes it. -/
structure EndedSilently (state : State) (history : History) : Prop where
  isExited : state.core.isExited = true
  unheralded : ¬ Heralded history

/-- Who owes the announcement does nothing else to the session as a whole. -/
theorem Duty.Heralds.eq_publish {duty : Duty} (h : duty.Heralds) {action : Action}
    (hpermits : duty.Permits action) (haction : action.IsMilestone) :
    action = .publish .exited := by
  obtain ⟨opens, rfl⟩ := h
  cases action with
  | publish event => exact congrArg _ haction
  | _ => exact absurd haction hpermits

section Passages

variable {state after : State} {history later : History}

theorem heralded_aside (hlater : later = history ∨
    ∃ occurrence : Occurrence, later = history ++ [occurrence] ∧ ¬ occurrence.IsMilestone) :
    Heralded later ↔ Heralded history := by
  unfold Heralded
  rw [announcements_aside hlater]
  simp only [dutyOf_aside hlater]

/-- An end that is announced, or is going to be, remains so. -/
theorem Heralded.of_passage (h : Heralded history) (hpassage : Passage state history after later) :
    Heralded later := by
  cases hpassage with
  | aside hhistory => exact (heralded_aside hhistory).mpr h
  | @step actor reaction action answer hpermits haction hperform hhistory =>
      subst hhistory
      rcases h with ⟨herald, hherald⟩ | hcount
      · by_cases hne : actor = herald
        · subst hne
          -- who owes the announcement makes it
          obtain rfl := hherald.eq_publish hpermits haction
          right
          rw [announcements_append]
          exact Nat.lt_add_left _ Nat.one_pos
        · exact .inl ⟨herald, by rwa [dutyOf_did_ne hne]⟩
      · right
        rw [announcements_append]
        omega

/-- A step of a session that has ended, if it is not the announcement, leaves it so, and its actor
owing what it did: nobody ends the session again. -/
theorem heralds_after_end {actor : Actor} {reaction : Option Fault} {action : Action}
    {answer : action.Answer} (hexited : state.core.isExited = true)
    (hpermits : (dutyOf actor history).Permits action) (haction : action.IsMilestone)
    (htells : action ≠ .publish .exited)
    (hperform : state.perform reaction action = some (after, answer)) :
    after.core.isExited = true ∧
      ((dutyOf actor (history ++ [.did actor ⟨action, answer⟩])).Heralds ↔
        (dutyOf actor history).Heralds) := by
  rw [dutyOf_did]
  by_cases hends : action = .markExited
  · subst hends
    have heffect : Effect state (.did actor ⟨.markExited, answer⟩) after := .did hperform
    obtain rfl : answer = false := by
      cases answer with
      | false => rfl
      | true =>
          have hgoesOn := heffect.isExited_of_ends rfl
          rw [hexited] at hgoesOn
          cases hgoesOn
    refine ⟨by rwa [heffect.core_eq_of_denied (deedOf?_did ..) rfl], ?_⟩
    obtain hduty | hduty | hduty := Duty.permits_markExited.mp hpermits <;>
      simp [hduty, Duty.after, Duty.Heralds]
  · exact ⟨(perform_isExited hends hperform).trans hexited,
      Duty.heralds_after hpermits haction hends htells answer⟩

/-- A silent end remains so. -/
theorem EndedSilently.of_passage (h : EndedSilently state history)
    (hpassage : Passage state history after later) : EndedSilently after later := by
  obtain ⟨hexited, hunheralded⟩ := h
  cases hpassage with
  | aside hhistory _ hsame =>
      exact ⟨hsame.trans hexited, mt (heralded_aside hhistory).mp hunheralded⟩
  | @step actor reaction action answer hpermits haction hperform hhistory =>
      subst hhistory
      obtain ⟨hheralds, hcount⟩ := not_or.mp hunheralded
      have htells : action ≠ .publish .exited := by
        rintro rfl
        exact hheralds ⟨actor, Duty.permits_publish_exited.mp hpermits⟩
      obtain ⟨hstill, hsame⟩ := heralds_after_end hexited hpermits haction htells hperform
      refine ⟨hstill, not_or.mpr ⟨?_, ?_⟩⟩
      · rintro ⟨other, hherald⟩
        exact hheralds ⟨other, (Announced.heralds_of_same hsame other).mp hherald⟩
      · rwa [announcements_concat (event?_did_ne_exited htells)]

end Passages

section Runs

variable {host : Host} {ρ α : Type} {program : ρ → Activity α}
  {c earlier later : Chronicle host ρ α} {actor : Actor}

theorem Possible.announcements_le_one (h : Possible program c)
    (hprogram : ∀ r, Dutiful (program r)) : announcements c.history ≤ 1 := by
  cases h.announced hprogram with
  | goingOn _ _ hcount | heralding _ _ _ _ hcount | silent _ _ hcount =>
      rw [hcount]
      exact Nat.zero_le 1
  | told _ _ hcount => exact Nat.le_of_eq hcount

/-- The end of a session that somebody may still open, or that has a debugger, is announced. -/
theorem Possible.heralded (h : Possible program c) (hprogram : ∀ r, Dutiful (program r))
    (hexited : c.session.state.core.isExited = true)
    (hloud : (∃ actor, (dutyOf actor c.history).Opens) ∨ c.session.state.wire.connected = true) :
    Heralded c.history := by
  cases h.announced hprogram with
  | goingOn hgoesOn => exact nomatch hexited.symm.trans hgoesOn
  | heralding actor _ hherald => exact .inl ⟨actor, hherald⟩
  | told _ _ hcount => exact .inr (by omega)
  | silent _ _ _ hshut hunconnected =>
      rcases hloud with ⟨actor, hopens⟩ | hconnected
      · exact absurd hopens (hshut.unopened actor)
      · exact nomatch hconnected.symm.trans hunconnected

/-- Nothing was announced when a start began. -/
theorem Possible.announcements_of_begun (h : Possible program c)
    (hprogram : ∀ r, Dutiful (program r)) {past since : History}
    (hhistory : c.history = past ++ .did actor ⟨.beginStart, true⟩ :: since) :
    announcements past = 0 := by
  obtain ⟨earlier, later, hmoment, rfl, hlater⟩ := h.exists_moment hhistory
  have hidle := (hmoment.effect hlater).phase_of_begins rfl
  cases hmoment.possible.announced hprogram with
  | goingOn _ _ hcount => exact hcount
  | heralding _ hexited | told hexited | silent hexited =>
      exact nomatch hidle.symm.trans (hmoment.possible.agrees.hasEnded hexited).phase

/-! ## No debugger -/

/-- A start that could not launch a debugger leaves the session shut.  If it has ended the session,
the end is silent; and if it has found the session ended, the end is announced by whoever it was. -/
theorem Moment.left_of_refused (h : Moment program c earlier later)
    (hprogram : ∀ r, Dutiful (program r)) (hduty : dutyOf actor earlier.history = .refused)
    {ended : Bool} (hlater : later.history = earlier.history ++ [.did actor ⟨.markExited, ended⟩]) :
    Shut later.session.state later.history ∧
      if ended then EndedSilently later.session.state later.history
      else Heralded later.history := by
  have heffect := h.effect hlater
  have hmarked : .did actor ⟨.markExited, ended⟩ ∈ later.history := by simp [hlater]
  have hexited := (h.possible_later.hasEnded_of_markExited hmarked).isExited
  constructor
  · cases heffect with
    | did hperform =>
        rw [hlater]
        exact ((h.possible.standing hprogram).shut_of_refused hduty hperform).1
  cases ended with
  | true =>
      refine ⟨hexited, ?_⟩
      cases h.possible.announced hprogram with
      | heralding _ hbefore | told hbefore | silent hbefore =>
          exact nomatch hbefore.symm.trans (heffect.isExited_of_ends rfl)
      | goingOn _ hheralds hcount =>
          rw [hlater]
          refine not_or.mpr ⟨not_exists.mpr ?_, ?_⟩
          · refine Announced.not_heralds_of_end (fun other _ => hheralds other) ?_
            rw [dutyOf_did, hduty]
            simp [Duty.after, Duty.Heralds]
          · rw [announcements_concat (event?_did_ne_exited (by simp)), hcount]
            exact Nat.lt_irrefl 0
  | false =>
      have hbefore : earlier.session.state.core.isExited = true := by
        rw [← heffect.core_eq_of_denied (deedOf?_did ..) rfl]
        exact hexited
      have hopens : (dutyOf actor earlier.history).Opens := hduty ▸ trivial
      have hheralded := h.possible.heralded hprogram hbefore (.inl ⟨actor, hopens⟩)
      exact hheralded.of_passage (h.possible.passage hprogram h.change)

end Runs

/-- A start has ended the session because it could not launch a debugger. -/
def EndsUntold (n : Nat) (history : History) : Prop :=
  ∃ fault, deedsOf (.caller n) history =
    [⟨.beginStart, true⟩, ⟨.launch, some fault⟩, ⟨.markExited, true⟩]

section Failures

variable {host : Host} {plan : Plan} {c : Chronicle host Request Reply} {n : Nat}

/-- What is left of a session for which no debugger could be launched. -/
theorem Possible.left_of_unlaunched (h : Possible (Request.program plan) c) {fault : Fault}
    {ended : Bool} (hdeeds : deedsOf (.caller n) c.history =
      [⟨.beginStart, true⟩, ⟨.launch, some fault⟩, ⟨.markExited, ended⟩]) :
    Over c.session.state c.history ∧
      if ended then EndedSilently c.session.state c.history else Heralded c.history := by
  have hsplit : deedsOf (.caller n) c.history =
      [⟨.beginStart, true⟩, ⟨.launch, some fault⟩] ++ [⟨.markExited, ended⟩] := hdeeds
  obtain ⟨past, future, hhistory, hpast, -⟩ := h.exists_did hsplit fun _ _ => rfl
  obtain ⟨earlier, later, hmoment, rfl, hlater⟩ := h.exists_moment hhistory
  have hduty : dutyOf (.caller n) earlier.history = .refused := by
    unfold dutyOf stageOf
    rw [hpast]
    rfl
  obtain ⟨hshut, hend⟩ := hmoment.left_of_refused (Request.dutiful plan) hduty hlater
  refine ⟨⟨?_, ?_⟩, ?_⟩
  · have hmarked : .did (.caller n) ⟨.markExited, ended⟩ ∈ c.history := by simp [hhistory]
    exact h.hasEnded_of_markExited hmarked
  · exact hmoment.of_passage (Request.dutiful plan) Shut hshut fun hpassage hshut =>
      (hshut.of_passage hpassage).1
  · cases ended with
    | true =>
        exact hmoment.of_passage (Request.dutiful plan) EndedSilently hend
          fun hpassage hsilent => hsilent.of_passage hpassage
    | false =>
        exact hmoment.of_passage (Request.dutiful plan) (fun _ => Heralded) hend
          fun hpassage hheralded => hheralded.of_passage hpassage

/-- What is left of a session whose start has failed: it is over, and its end is silent or
announced. -/
theorem Possible.left_of_failed (h : Possible (Request.program plan) c) {fault : Fault}
    (hlaunched : Launched plan (.error fault) (deedsOf (.caller n) c.history))
    (hbegun : ⟨.beginStart, true⟩ ∈ deedsOf (.caller n) c.history) :
    Over c.session.state c.history ∧
      (EndsUntold n c.history ∧ EndedSilently c.session.state c.history ∨
        ¬ EndsUntold n c.history ∧ Heralded c.history) := by
  unfold EndsUntold
  generalize hdeeds : deedsOf (.caller n) c.history = deeds at hlaunched hbegun
  cases hlaunched with
  | refused => simp at hbegun
  | unlaunched fault ended =>
      obtain ⟨hover, hend⟩ := h.left_of_unlaunched hdeeds
      refine ⟨hover, ?_⟩
      cases ended with
      | true => exact .inl ⟨⟨fault, rfl⟩, hend⟩
      | false => exact .inr ⟨by simp, hend⟩
  | @brought link _ brought hlink hbrought =>
      have hover : Over c.session.state c.history := by
        cases hbrought with
        | @unheard watching closing exited hwatching hstop =>
            exact h.over_of_start hstop (⟨.beginStart, true⟩ :: link :: watching)
              [⟨.awaitOutput plan.config.readyLimit, false⟩, ⟨.isExited, exited⟩] hdeeds
        | @failed watching warming closing fault hwatching hwarming hstop =>
            exact h.over_of_start hstop (⟨.beginStart, true⟩ :: link :: watching)
              (⟨.awaitOutput plan.config.readyLimit, true⟩ :: warming) hdeeds
      have hlinked : link ∈ deedsOf (.caller n) c.history := by simp [hdeeds]
      have hconnected := h.connected (Request.dutiful plan) hlink hlinked
      refine ⟨hover, .inr ⟨?_, ?_⟩⟩
      · rintro ⟨fault, heq⟩
        rcases hlink with rfl | rfl <;> simp at heq
      · exact h.heralded (Request.dutiful plan) hover.hasEnded.isExited (.inr hconnected)

/-- When nobody is left who may announce the end, an end that is announced was announced once. -/
theorem Chronicle.EndersDone.announcements_eq (hdone : c.EndersDone)
    (h : Possible (Request.program plan) c) (hheralded : Heralded c.history) :
    announcements c.history = 1 := by
  rcases hheralded with ⟨actor, opens, hduty⟩ | hcount
  · rw [hdone.dutyOf_eq h] at hduty
    cases hduty
  · have hle := h.announcements_le_one (Request.dutiful plan)
    omega

end Failures

/-! ## Listeners -/

/-- A listener came before anything was published but what `past` has published, and has stayed; and
all that `history` has published was handed on. -/
structure Listens (name : String) (past history : History) (router : Router) : Prop where
  came : ∃ before after then_, ({} : Router).turns? before = some then_ ∧
    then_.turns? (.subscribe name :: after) = some router ∧
    (∀ turn ∈ after, turn ≠ .subscribe name ∧ turn ≠ .unsubscribe name) ∧
    Router.published before <+: published past ∧
    Router.published before ++ Router.published after = published history
  handedOn : router.queue = []

/-- Who listened before anything was announced has heard all that was. -/
theorem Listens.count_received {name : String} {past history : History} {router : Router}
    (h : Listens name past history router) (hpast : announcements past = 0) :
    (router.received name).count .exited = announcements history := by
  obtain ⟨⟨before, after, then_, hbefore, hafter, hstays, hprefix, hpublished⟩, hempty⟩ := h
  have hwired := Router.IsWired.new.turns hbefore
  obtain ⟨handed, hhanded⟩ := Router.exists_handed Router.IsWired.new hbefore
  obtain ⟨heard, hnow, hheard⟩ := Router.exists_heard hwired hafter hstays
  have hreceived : router.received name = heard := by
    rw [Router.received_eq, hnow, Option.getD_some]
  have hnone : handed.count .exited = 0 := by
    have hle := hprefix.sublist.count_le Event.exited
    have hsplit : Router.published before = handed ++ then_.queue := hhanded
    rw [hsplit, List.count_append] at hle
    unfold announcements at hpast
    omega
  calc (router.received name).count .exited
      = (then_.queue ++ Router.published after).count .exited := by
        rw [hheard, hempty, List.append_nil, hreceived]
    _ = (handed ++ then_.queue ++ Router.published after).count .exited := by
        simp [List.count_append, hnone]
    _ = announcements history := by
        rw [← show Router.published before = handed ++ then_.queue from hhanded, hpublished]
        rfl

/-! ## Main result -/

/-- What holds of a session for ever after caller `n` has failed to start it, `since` being the first
caller that came after that. -/
structure Abandoned {host : Host} (plan : Plan) (n since : Nat) (c : Chronicle host Request Reply) :
    Prop where
  phase : c.session.state.core.phase = .exited
  refuses : Refuses plan since c
  atMostOnce : announcements c.history ≤ 1
  /-- once all have finished who may announce the end, it was announced -/
  announced : ¬ EndsUntold n c.history → c.EndersDone → announcements c.history = 1
  unannounced : EndsUntold n c.history → announcements c.history = 0
  /-- who listened before the start began has heard of the end as often as it was announced -/
  heard : ∀ name past since router,
    c.history = past ++ .did (.caller n) ⟨.beginStart, true⟩ :: since →
    Listens name past c.history router →
    (router.received name).count .exited = announcements c.history

section Main

variable {host : Host} {plan : Plan} {c later : Chronicle host Request Reply} {n : Nat}

theorem Possible.abandoned (h : Possible (Request.program plan) c) {operation : Operation}
    (hstarts : operation.Starts) (hrequest : c.requests[n]? = some (.operation operation))
    (hbegun : ⟨.beginStart, true⟩ ∈ deedsOf (.caller n) c.history) {fault : Fault}
    (hreply : c.system.value? n = some (.started (.error fault))) {turns : List (Turn Request)}
    (hturns : c.turns? (Request.program plan) turns = some later) :
    Abandoned plan n c.system.callers.length later := by
  obtain ⟨_, hsame, hlaunched⟩ := h.launched hstarts hrequest hreply
  cases hsame
  obtain ⟨hover', hrefuses⟩ := h.refuses (h.left_of_failed hlaunched hbegun).1 hturns
  have hlater := h.turns turns hturns
  have hdeeds := (Chronicle.rests_of_turns? hturns hreply).2
  obtain ⟨-, hend⟩ := hlater.left_of_failed (hdeeds ▸ hlaunched) (hdeeds ▸ hbegun)
  refine ⟨hover'.hasEnded.phase, hrefuses, hlater.announcements_le_one (Request.dutiful plan),
    fun hnot hdone => ?_, fun huntold => ?_, ?_⟩
  · rcases hend with ⟨huntold, -⟩ | ⟨-, hheralded⟩
    · exact absurd huntold hnot
    · exact hdone.announcements_eq hlater hheralded
  · rcases hend with ⟨-, hsilent⟩ | ⟨hnot, -⟩
    · exact Nat.eq_zero_of_not_pos (not_or.mp hsilent.unheralded).2
    · exact absurd huntold hnot
  · intro name past since router hhistory hlistens
    exact hlistens.count_received (hlater.announcements_of_begun (Request.dutiful plan) hhistory)

/-- A start that has begun can always come to its return.  When it returns it has failed at one of
the points of `Launched`, or has succeeded.  If it has failed, the session has ended; whoever comes
later is refused, another start too; and the end is announced once to everybody who listened before
the start, unless the start has ended the session because it could not launch a debugger: then it is
never announced. -/
theorem failed_start_ends_session (host : Host) (plan : Plan) (c : Chronicle host Request Reply)
    (h : Possible (Request.program plan) c) (n : Nat) (operation : Operation)
    (hstarts : operation.Starts) (hrequest : c.requests[n]? = some (.operation operation))
    (hbegun : ⟨.beginStart, true⟩ ∈ deedsOf (.caller n) c.history) :
    (∃ more later, (∀ turn ∈ more, ∃ m, turn.IsOf m) ∧
      c.turns? (Request.program plan) more = some later ∧ (later.system.value? n).isSome) ∧
    ∀ reply, c.system.value? n = some reply → ∃ result, reply = .started result ∧
      Launched plan result (deedsOf (.caller n) c.history) ∧
      ∀ fault, result = .error fault → ∀ more later,
        c.turns? (Request.program plan) more = some later →
          Abandoned plan n c.system.callers.length later := by
  constructor
  · obtain ⟨rest, hcaller, -⟩ := h.leads_of_request hrequest
    obtain ⟨more, later, value, hmore, hlater, hvalue⟩ :=
      h.exists_return (Request.conducted plan) hcaller
    exact ⟨more, later, hmore, hlater, Option.isSome_iff_exists.mpr ⟨value, hvalue⟩⟩
  · intro reply hreply
    obtain ⟨result, rfl, hlaunched⟩ := h.launched hstarts hrequest hreply
    refine ⟨result, rfl, hlaunched, ?_⟩
    rintro fault rfl more later hmore
    exact h.abandoned hstarts hrequest hbegun hreply hmore

/-- The process is reported gone before the session listens: the start fails, and whoever comes then
is refused.  A listener that was there before has heard of the end once. -/
theorem failed_start_ends_session_of_gone : ∃ c later : Chronicle Host.blind Request Reply,
    Possible (Request.program Plan.plain) c ∧
      c.turns? (Request.program Plan.plain) (.request (.operation (.call .run)) :: Turn.acts 1 2 ++
        .request (.operation .startConnected) :: Turn.acts 2 1) = some later ∧
      c.system.value? 0 = some (.started (.error .exited)) ∧
      later.system.value? 1 = some (.outcomes [.sessionExited]) ∧
      later.system.value? 2 = some (.started (.error .alreadyStarted)) ∧
      Abandoned Plan.plain 0 c.system.callers.length later ∧
      ∃ router, Listens "main" [] later.history router ∧
        (router.received "main").count .exited = 1 := by
  obtain ⟨c, later, router, since, hturns, hrequest, hbegun, hreply, hmore, hcall, hstart, hquiet,
      hlinked, hsince, hpublished, hrouter, hempty⟩ :
      ∃ (c later : Chronicle Host.blind Request Reply) (router : Router) (since : History),
      Chronicle.turns? (Request.program Plan.plain) {}
        (.happen .reportGone :: .request (.operation .startConnected) :: Turn.acts 0 16) = some c ∧
      c.requests[0]? = some (.operation .startConnected) ∧
      (deedsOf (.caller 0) c.history).head? = some ⟨.beginStart, true⟩ ∧
      c.system.value? 0 = some (Reply.started (.error .exited)) ∧
      c.turns? (Request.program Plan.plain) (.request (.operation (.call .run)) :: Turn.acts 1 2 ++
        .request (.operation .startConnected) :: Turn.acts 2 1) = some later ∧
      later.system.value? 1 = some (Reply.outcomes [.sessionExited]) ∧
      later.system.value? 2 = some (Reply.started (.error .alreadyStarted)) ∧
      later.isQuiet = true ∧
      (deedsOf (.caller 0) later.history)[1]? = some ⟨.connect, ()⟩ ∧
      later.history = .did (.caller 0) ⟨.beginStart, true⟩ :: since ∧
      published later.history = [.exited] ∧
      ({} : Router).turns? [.subscribe "main", .publish .exited, .advance Host.blind] =
        some router ∧ router.queue = [] :=
    ⟨_, _, _, _, rfl, rfl, rfl, rfl, rfl, rfl, rfl, rfl, rfl, rfl, rfl, rfl, rfl⟩
  have h := Possible.fresh.turns _ hturns
  obtain ⟨-, hends⟩ := failed_start_ends_session _ _ c h 0 .startConnected trivial hrequest
    (List.mem_of_mem_head? hbegun)
  obtain ⟨_, hsame, -, hfails⟩ := hends _ hreply
  cases hsame
  have habandoned := hfails _ rfl _ later hmore
  have hannounced : announcements later.history = 1 := by
    refine habandoned.announced ?_ (.of_isQuiet (h.turns _ hmore) hquiet)
    rintro ⟨fault, heq⟩
    rw [heq] at hlinked
    cases hlinked
  have hlistens : Listens "main" [] later.history router :=
    ⟨⟨[], [.publish .exited, .advance Host.blind], {}, rfl, hrouter, by simp, List.nil_prefix,
      hpublished.symm⟩, hempty⟩
  exact ⟨c, later, h, hmore, hreply, hcall, hstart, habandoned, router, hlistens,
    (habandoned.heard "main" [] since router hsince hlistens).trans hannounced⟩

/-- The directory of the program to debug is missing: the start fails and ends the session, and
nobody is told. -/
theorem end_untold_after_launch : ∃ c : Chronicle Host.blind Request Reply,
    Possible (Request.program Plan.plain) c ∧ c.isQuiet = true ∧
      c.system.value? 0 = some (.started (.error (.workingDirectory "/nowhere"))) ∧
      c.session.state.core.phase = .exited ∧
      ∃ router, Listens "main" [] c.history router ∧ router.received "main" = [] := by
  obtain ⟨c, hturns, hquiet, hreply, hphase, hpublished⟩ :
      ∃ c : Chronicle Host.blind Request Reply,
      Chronicle.turns? (Request.program Plan.plain) {} [.request (.operation .start), .act 0 none,
        .act 0 (some (.workingDirectory "/nowhere")), .act 0 none] = some c ∧
      c.isQuiet = true ∧
      c.system.value? 0 = some (Reply.started (.error (.workingDirectory "/nowhere"))) ∧
      c.session.state.core.phase = .exited ∧ published c.history = [] :=
    ⟨_, rfl, rfl, rfl, rfl, rfl⟩
  refine ⟨c, Possible.fresh.turns _ hturns, hquiet, hreply, hphase, _,
    ⟨⟨[], [], {}, rfl, rfl, nofun, List.nil_prefix, hpublished.symm⟩, rfl⟩, rfl⟩

end Main

end DebugBridge.Session
