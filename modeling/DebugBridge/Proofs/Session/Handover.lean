import DebugBridge.Proofs.Session.Flight

/-!
# Handing over results

Single flight and exclusive delivery: at most one caller holds the gate, at most one command is in
flight, each result that a command returns was delivered while it was in flight, and no record is
returned by two commands.

## Strategy

Tickets are given out in order, each once, so a return tells at which moment its command armed the
slot.  Nothing between the two arms the slot or returns, hence the times in flight of two commands
do not overlap.

## Main statements

* `single_flight`: the four properties, for all requests and every order of events.
-/

namespace DebugBridge.Session

/-! ## Holding the gate and being in flight -/

/-- Whether an action ends the flight of a command. -/
def Action.Returns : Action → Prop
  | disarm | awaitResult _ _ _ => True
  | _ => False

/-- The end of a flight bounds the time for which the command is in flight. -/
theorem bounds_of_returns {occurrence : Occurrence} {actor : Actor} {deed : Deed interface}
    (hdeed : occurrence.deedOf? actor = some deed) (hreturns : deed.action.Returns) :
    occurrence.Bounds := by
  obtain ⟨action, answer⟩ := deed
  have hbounds : action.Bounds := by
    cases action <;> trivial
  cases occurrence with
  | did other deed | gaveUp other deed =>
      obtain ⟨-, rfl⟩ := by simpa [Occurrence.deedOf?] using hdeed
      exact hbounds
  | happened => cases hdeed

/-- A caller was granted the gate and has not released it since. -/
def HoldsGate (history : History) (caller : Nat) : Prop :=
  ∃ limit before since,
    deedsOf (.caller caller) history = before ++ ⟨.acquire limit, true⟩ :: since ∧
      ∀ deed ∈ since, deed.action ≠ .release

/-- A caller has armed the slot with a ticket and has not returned from that command since. -/
def InFlight (history : History) (caller ticket : Nat) : Prop :=
  ∃ before since, deedsOf (.caller caller) history = before ++ ⟨.arm, ticket⟩ :: since ∧
    ∀ deed ∈ since, ¬ deed.action.Returns

theorem Leg.after_ne_idle {leg : Leg} {action : Action} (hleg : leg ≠ idle)
    (haction : action ≠ .release) (answer : action.Answer) : leg.after action answer ≠ idle := by
  cases action with
  | release => exact absurd rfl haction
  | acquire limit => cases answer <;> simp [after, hleg]
  | write line => cases leg <;> cases answer <;> simp_all [after]
  | arm | disarm | awaitResult => simp [after]
  | _ => exact hleg

theorem Leg.ticket?_after {leg : Leg} {action : Action} {ticket : Nat}
    (hleg : leg.ticket? = some ticket) (hpermits : leg.Permits True action)
    (haction : ¬ action.Returns) (answer : action.Answer) :
    (leg.after action answer).ticket? = some ticket := by
  cases action with
  | disarm | awaitResult => exact absurd trivial haction
  | acquire | release | arm => cases leg <;> simp_all [ticket?, Permits, Action.Steers]
  | write line => cases leg <;> cases answer <;> simp_all [ticket?, Permits, Action.Steers, after]
  | _ => exact hleg

theorem stageAfter_ne_idle {leg : Leg} {deeds : List (Deed interface)} (hleg : leg ≠ .idle)
    (hdeeds : ∀ deed ∈ deeds, deed.action ≠ .release) :
    (course True fun _ => True).stageAfter leg deeds ≠ .idle := by
  induction deeds generalizing leg with
  | nil => exact hleg
  | cons deed rest ih =>
      rw [List.forall_mem_cons] at hdeeds
      exact ih (Leg.after_ne_idle hleg hdeeds.1 deed.answer) hdeeds.2

theorem ticket?_stageAfter {leg : Leg} {ticket : Nat} {deeds : List (Deed interface)}
    (hleg : leg.ticket? = some ticket) (hkeeps : (course True fun _ => True).Keeps leg deeds)
    (hdeeds : ∀ deed ∈ deeds, ¬ deed.action.Returns) :
    Leg.ticket? ((course True fun _ => True).stageAfter leg deeds) = some ticket := by
  induction deeds generalizing leg with
  | nil => exact hleg
  | cons deed rest ih =>
      rw [List.forall_mem_cons] at hdeeds
      exact ih (Leg.ticket?_after hleg hkeeps.1 hdeeds.1 deed.answer) hkeeps.2 hdeeds.2

section Runs

variable {host : Host} {ρ α : Type} {program : ρ → Activity α} {c : Chronicle host ρ α}

theorem HoldsGate.legOf_ne_idle {history : History} {caller : Nat}
    (h : HoldsGate history caller) : legOf (.caller caller) history ≠ .idle := by
  obtain ⟨limit, before, since, hdeeds, hstay⟩ := h
  rw [legOf, hdeeds, Protocol.stageAfter_append, Protocol.stageAfter_cons]
  exact stageAfter_ne_idle (by simp [Leg.after]) hstay

theorem Possible.ticket?_of_inFlight (h : Possible program c) (hprogram : Disciplined program)
    {caller ticket : Nat} (hflight : InFlight c.history caller ticket) :
    (legOf (.caller caller) c.history).ticket? = some ticket := by
  obtain ⟨before, since, hdeeds, hstay⟩ := hflight
  have hkeeps := h.keeps hprogram (h.admits (.caller caller))
  rw [hdeeds, Protocol.keeps_append] at hkeeps
  rw [legOf, hdeeds, Protocol.stageAfter_append, Protocol.stageAfter_cons]
  exact ticket?_stageAfter rfl hkeeps.2.2 hstay

/-- At most one caller holds the gate. -/
theorem Possible.holdsGate_unique (h : Possible program c) (hprogram : Disciplined program)
    {i j : Nat} (hi : HoldsGate c.history i) (hj : HoldsGate c.history j) : i = j := by
  obtain ⟨hothers, -, -⟩ := (h.orderly hprogram).of_not_idle hi.legOf_ne_idle
  by_cases hne : i = j
  · exact hne
  · exact absurd (hothers (.caller j) (by simpa using hne)) hj.legOf_ne_idle

/-- At most one command is in flight. -/
theorem Possible.inFlight_unique (h : Possible program c) (hprogram : Disciplined program)
    {i j t u : Nat} (hi : InFlight c.history i t) (hj : InFlight c.history j u) :
    i = j ∧ t = u := by
  have hti := h.ticket?_of_inFlight hprogram hi
  have htj := h.ticket?_of_inFlight hprogram hj
  have hbusy : legOf (.caller i) c.history ≠ .idle := by
    intro hidle
    simp [hidle, Leg.ticket?] at hti
  obtain ⟨hothers, -, -⟩ := (h.orderly hprogram).of_not_idle hbusy
  by_cases hne : i = j
  · subst hne
    exact ⟨rfl, Option.some.inj (hti.symm.trans htj)⟩
  · rw [hothers (.caller j) (by simpa using hne)] at htj
    cases htj

/-! ## Tickets -/

/-- Only the arming of the slot gives a ticket out. -/
theorem perform_issued {reaction : Option Fault} {action : Action} {state after : State}
    {answer : action.Answer} (haction : action ≠ .arm)
    (hperform : state.perform reaction action = some (after, answer)) :
    after.core.slot.issued = state.core.slot.issued := by
  by_cases hsteers : action.Steers
  · rw [perform_core hperform]
    cases action with
    | arm => exact absurd rfl haction
    | awaitResult ticket limit claimed =>
        simp only [Action.onCore, Core.collect?]
        split
        · rfl
        · split <;> rfl
    | acquire | release | disarm | write => rfl
    | _ => exact absurd hsteers id
  · exact (perform_of_not_steers hsteers hperform).2.2.1

theorem giveUp_issued {reaction : Option Fault} {action : Action} {state after : State}
    {answer : action.Answer} (hgiveUp : state.giveUp reaction action = some (after, answer)) :
    after.core.slot.issued = state.core.slot.issued := by
  cases action with
  | awaitResult ticket limit claimed =>
      cases hgiveUp
      cases claimed <;> rfl
  | _ => rw [giveUp_core hgiveUp (by simp)]

/-- The tickets that were given out are the first so many. -/
theorem Effect.tickets_eq {state after : State} {history : History} {occurrence : Occurrence}
    (h : Effect state occurrence after)
    (hbefore : tickets history = (List.range state.core.slot.issued).map (· + 1)) :
    tickets (history ++ [occurrence]) =
      (List.range after.core.slot.issued).map (· + 1) := by
  rw [tickets, List.filterMap_append, ← tickets, hbefore]
  cases h with
  | @did actor reaction action answer after hperform =>
      by_cases harm : action = .arm
      · subst harm
        cases hperform
        simp [Occurrence.ticket?, Core.arm, List.range_succ]
      · have hticket : Occurrence.ticket? (.did actor ⟨action, answer⟩) = none := by
          cases action <;> first | rfl | exact absurd rfl harm
        simp [hticket, perform_issued harm hperform]
  | gaveUp hwait hgiveUp =>
      simp [Occurrence.ticket?, giveUp_issued hgiveUp]
  | printed hcore =>
      simp [Occurrence.ticket?, hcore]

theorem Possible.tickets_eq (h : Possible program c) :
    tickets c.history = (List.range c.session.state.core.slot.issued).map (· + 1) :=
  h.of_effect
    (fun core history => tickets history = (List.range core.slot.issued).map (· + 1)) rfl
    fun _ _ _ heffect hbefore => heffect.tickets_eq hbefore

/-- A ticket is given out once. -/
theorem Possible.ticket_unique (h : Possible program c) {a b ticket : Nat} {actor other : Actor}
    (ha : c.history[a]? = some (.did actor ⟨.arm, ticket⟩))
    (hb : c.history[b]? = some (.did other ⟨.arm, ticket⟩)) : a = b := by
  -- tickets increase along the history
  have hlt : (tickets c.history).Pairwise (· < ·) := by
    rw [h.tickets_eq]
    exact List.pairwise_lt_range.map _ fun a b hab => Nat.succ_lt_succ hab
  rw [tickets, List.pairwise_filterMap, List.pairwise_iff_getElem] at hlt
  obtain ⟨hla, ha⟩ := List.getElem?_eq_some_iff.mp ha
  obtain ⟨hlb, hb⟩ := List.getElem?_eq_some_iff.mp hb
  rcases Nat.lt_trichotomy a b with hab | rfl | hba
  · have := hlt a b hla hlb hab ticket (by rw [ha]; rfl) ticket (by rw [hb]; rfl)
    omega
  · rfl
  · have := hlt b a hlb hla hba ticket (by rw [hb]; rfl) ticket (by rw [ha]; rfl)
    omega

/-! ## Handing over -/

/-- A caller arms the slot at a moment. -/
def ArmsAt (history : History) (caller ticket moment : Nat) : Prop :=
  history[moment]? = some (.did (.caller caller) ⟨.arm, ticket⟩)

/-- A record is delivered at a moment. -/
def DeliversAt (history : History) (outcome : Outcome) (moment : Nat) : Prop :=
  ∃ reporter, history[moment]? = some (.did reporter ⟨.deliver outcome, ()⟩)

/-- The command with a ticket returns an outcome at a moment, without having given up. -/
def ReturnsAt (history : History) (caller ticket : Nat) (outcome : Outcome) (moment : Nat) : Prop :=
  ∃ limit claimed,
    history[moment]? = some (.did (.caller caller) ⟨.awaitResult ticket limit claimed, outcome⟩)

/-- A command armed the slot at one moment and returned an outcome at another, which was delivered
at a moment in between. -/
structure Handover (history : History) (caller : Nat) (outcome : Outcome)
    (armed delivered returned : Nat) : Prop where
  command : ∃ ticket, ArmsAt history caller ticket armed ∧
    ReturnsAt history caller ticket outcome returned
  delivery : DeliversAt history outcome delivered
  armed_lt : armed < delivered
  delivered_lt : delivered < returned

theorem exists_of_delivery? {occurrence : Occurrence} {outcome : Outcome}
    (h : occurrence.delivery? = some outcome) :
    ∃ reporter, occurrence = .did reporter ⟨.deliver outcome, ()⟩ := by
  cases occurrence with
  | did reporter deed =>
      obtain ⟨action, answer⟩ := deed
      cases action <;> cases h
      exact ⟨reporter, rfl⟩
  | gaveUp | happened => cases h

/-- What happened between two moments. -/
def between (history : History) (first last : Nat) : History :=
  (history.take last).drop (first + 1)

theorem mem_between {history : History} {first last : Nat} {occurrence : Occurrence} :
    occurrence ∈ between history first last ↔
      ∃ k, first < k ∧ k < last ∧ history[k]? = some occurrence := by
  rw [between, List.mem_iff_getElem?]
  constructor
  · rintro ⟨k, hk⟩
    rw [List.getElem?_drop, List.getElem?_take] at hk
    split at hk
    · exact ⟨first + 1 + k, by omega, by omega, hk⟩
    · cases hk
  · rintro ⟨k, hfirst, hlast, hk⟩
    refine ⟨k - (first + 1), ?_⟩
    rw [List.getElem?_drop, List.getElem?_take, Nat.add_sub_of_le hfirst, if_pos hlast, hk]

theorem eq_take_append_drop {history : History} {moment : Nat} {occurrence : Occurrence}
    (h : history[moment]? = some occurrence) :
    history = history.take moment ++ occurrence :: history.drop (moment + 1) := by
  obtain ⟨hlt, hget⟩ := List.getElem?_eq_some_iff.mp h
  rw [← hget]
  simp

theorem take_eq_append_between {history : History} {first last : Nat} {occurrence : Occurrence}
    (hlt : first < last) (hfirst : history[first]? = some occurrence) :
    history.take last = history.take first ++ occurrence :: between history first last := by
  obtain ⟨hlength, hget⟩ := List.getElem?_eq_some_iff.mp hfirst
  have hdrop : (history.take last).drop first = occurrence :: between history first last := by
    rw [List.drop_eq_getElem_cons (by simp; omega), List.getElem_take, hget, between]
  have htake : (history.take last).take first = history.take first := by
    rw [List.take_take, Nat.min_eq_left (Nat.le_of_lt hlt)]
  rw [← List.take_append_drop first (history.take last), hdrop, htake]

/-- A command that returns armed the slot at some moment, and nobody has armed the slot or returned
since then. -/
theorem Possible.exists_armed (h : Possible program c) (hprogram : Disciplined program)
    {caller ticket returned : Nat} {outcome : Outcome}
    (hreturned : ReturnsAt c.history caller ticket outcome returned) :
    ∃ armed, armed < returned ∧ ArmsAt c.history caller ticket armed ∧
      (∀ occurrence ∈ between c.history armed returned, ¬ occurrence.Bounds) ∧
      (written (between c.history armed returned)).length = 1 ∧
      ((deliveries (between c.history armed returned)).getLast? = some outcome ∨
        deliveries (between c.history armed returned) = [] ∧ outcome = .sessionExited) := by
  obtain ⟨limit, claimed, hreturned⟩ := hreturned
  have hsplit := eq_take_append_drop hreturned
  obtain ⟨before, since, hpast, hquiet, hlines, hlast⟩ := h.returns hprogram hsplit
  have hlength : returned = before.length + (since.length + 1) := by
    have hlt := (List.getElem?_eq_some_iff.mp hreturned).1
    have := congrArg List.length hpast
    simp at this
    omega
  have harmed : ArmsAt c.history caller ticket before.length := by
    rw [ArmsAt, hsplit, hpast]
    simp
  have hsince : between c.history before.length returned = since := by
    rw [between, hpast]
    simp [List.drop_append]
  exact ⟨before.length, by omega, harmed, hsince ▸ hquiet, hsince ▸ hlines, hsince ▸ hlast⟩

/-- What a command returns was handed over to it, unless the session has ended. -/
theorem Possible.exists_handover (h : Possible program c) (hprogram : Disciplined program)
    {caller ticket returned : Nat} {outcome : Outcome}
    (hreturned : ReturnsAt c.history caller ticket outcome returned) :
    outcome = .sessionExited ∨
      ∃ armed delivered, Handover c.history caller outcome armed delivered returned := by
  obtain ⟨armed, hlt, harmed, -, -, hlast | ⟨-, hexited⟩⟩ := h.exists_armed hprogram hreturned
  · obtain ⟨occurrence, hmem, hdelivery⟩ :=
      List.mem_filterMap.mp (List.mem_of_getLast? hlast)
    obtain ⟨reporter, rfl⟩ := exists_of_delivery? hdelivery
    obtain ⟨delivered, hfirst, hbefore, hget⟩ := mem_between.mp hmem
    exact .inr ⟨armed, delivered, ⟨ticket, harmed, hreturned⟩, ⟨reporter, hget⟩, hfirst, hbefore⟩
  · exact .inl hexited

/-- While a command is in flight that returns later, nobody arms the slot or returns. -/
theorem Possible.quiet_of_returns (h : Possible program c) (hprogram : Disciplined program)
    {caller ticket armed returned : Nat} {outcome : Outcome}
    (harmed : ArmsAt c.history caller ticket armed)
    (hreturned : ReturnsAt c.history caller ticket outcome returned) :
    ∀ occurrence ∈ between c.history armed returned, ¬ occurrence.Bounds := by
  obtain ⟨first, -, hfirst, hquiet, -, -⟩ := h.exists_armed hprogram hreturned
  obtain rfl := h.ticket_unique harmed hfirst
  exact hquiet

/-- Two commands that are in flight at the same moment are the same. -/
theorem Possible.flight_unique (h : Possible program c) (hprogram : Disciplined program)
    {i j t u a b moment p q : Nat} {o o' : Outcome} (ha : ArmsAt c.history i t a)
    (hp : ReturnsAt c.history i t o p) (hb : ArmsAt c.history j u b)
    (hq : ReturnsAt c.history j u o' q) (ham : a < moment) (hmp : moment < p) (hbm : b < moment)
    (hmq : moment < q) : i = j ∧ a = b ∧ p = q := by
  obtain ⟨limit, claimed, hpget⟩ := hp
  obtain ⟨limit', claimed', hqget⟩ := hq
  rcases Nat.lt_trichotomy p q with hlt | rfl | hgt
  -- the first would return while the second is in flight
  · have hmem := mem_between.mpr ⟨p, Nat.lt_trans hbm hmp, hlt, hpget⟩
    exact absurd trivial (h.quiet_of_returns hprogram hb ⟨limit', claimed', hqget⟩ _ hmem)
  · rw [hpget] at hqget
    obtain ⟨rfl, rfl⟩ : i = j ∧ t = u := by
      cases hqget
      exact ⟨rfl, rfl⟩
    exact ⟨rfl, h.ticket_unique ha hb, rfl⟩
  -- the second would return while the first is in flight
  · have hmem := mem_between.mpr ⟨q, Nat.lt_trans ham hmq, hgt, hqget⟩
    exact absurd trivial (h.quiet_of_returns hprogram ha ⟨limit, claimed, hpget⟩ _ hmem)

/-- No two commands are handed the same record over. -/
theorem Possible.handover_unique (h : Possible program c) (hprogram : Disciplined program)
    {i j a b delivered p q : Nat} {o u : Outcome} (hi : Handover c.history i o a delivered p)
    (hj : Handover c.history j u b delivered q) : i = j ∧ a = b ∧ p = q := by
  obtain ⟨ticket, ha, hp⟩ := hi.command
  obtain ⟨ticket', hb, hq⟩ := hj.command
  exact h.flight_unique hprogram ha hp hb hq hi.armed_lt hi.delivered_lt hj.armed_lt
    hj.delivered_lt

/-- Between the moments at which it arms the slot and returns, a command is in flight. -/
theorem Possible.inFlight_of_returns (h : Possible program c) (hprogram : Disciplined program)
    {caller ticket armed moment returned : Nat} {outcome : Outcome}
    (harmed : ArmsAt c.history caller ticket armed)
    (hreturned : ReturnsAt c.history caller ticket outcome returned) (hafter : armed < moment)
    (hbefore : moment < returned) : InFlight (c.history.take moment) caller ticket := by
  have hquiet := h.quiet_of_returns hprogram harmed hreturned
  have hsplit : c.history.take moment = c.history.take armed ++
      .did (.caller caller) ⟨.arm, ticket⟩ :: between c.history armed moment :=
    take_eq_append_between hafter harmed
  refine ⟨deedsOf (.caller caller) (c.history.take armed),
    deedsOf (.caller caller) (between c.history armed moment), ?_, fun deed hdeed => ?_⟩
  · rw [hsplit]
    simp [deedsOf]
  · obtain ⟨occurrence, hmem, hdeed⟩ := List.mem_filterMap.mp hdeed
    obtain ⟨k, hk, hlt, hget⟩ := mem_between.mp hmem
    have hbounds := hquiet occurrence (mem_between.mpr ⟨k, hk, Nat.lt_trans hlt hbefore, hget⟩)
    exact fun hreturns => hbounds (bounds_of_returns hdeed hreturns)

/-- A record that is handed over is delivered while the command is in flight. -/
theorem Possible.inFlight_of_handover (h : Possible program c) (hprogram : Disciplined program)
    {caller armed delivered returned : Nat} {outcome : Outcome}
    (hover : Handover c.history caller outcome armed delivered returned) :
    ∃ ticket, InFlight (c.history.take delivered) caller ticket := by
  obtain ⟨ticket, harmed, hreturned⟩ := hover.command
  exact ⟨ticket, h.inFlight_of_returns hprogram harmed hreturned hover.armed_lt hover.delivered_lt⟩

/-! ## Replies -/

/-- A caller that gives up waiting for a result answers with an outcome that is made up. -/
theorem Possible.eq_timedOut (h : Possible program c) (hprogram : Disciplined program)
    {actor : Actor} {ticket limit : Nat} {claimed : Bool} {outcome : Outcome}
    (hmem : .gaveUp actor ⟨.awaitResult ticket limit claimed, outcome⟩ ∈ c.history) :
    outcome = .timedOut := by
  obtain ⟨past, future, hhistory⟩ := List.append_of_mem hmem
  obtain ⟨earlier, after, -, -, heffect, -⟩ := h.exists_effect hprogram hhistory
  cases heffect with
  | gaveUp hwait hgiveUp =>
      cases hgiveUp
      rfl

/-- A caller that waits for a result gets it, or gives up with an outcome that is made up. -/
theorem Possible.madeUp_or_returned (h : Possible program c) (hprogram : Disciplined program)
    {caller ticket limit : Nat} {claimed : Bool} {outcome : Outcome}
    (hdeed : (⟨.awaitResult ticket limit claimed, outcome⟩ : Deed interface) ∈
      deedsOf (.caller caller) c.history) :
    outcome.MadeUp ∨ ∃ ticket returned, ReturnsAt c.history caller ticket outcome returned := by
  obtain ⟨occurrence, hmem, hdeed⟩ := List.mem_filterMap.mp hdeed
  cases occurrence with
  | happened => cases hdeed
  | gaveUp actor deed =>
      obtain ⟨rfl, rfl⟩ := by simpa [Occurrence.deedOf?] using hdeed
      rw [h.eq_timedOut hprogram hmem]
      exact .inl (Outcome.madeUp_ofMessage _ _)
  | did actor deed =>
      obtain ⟨rfl, rfl⟩ := by simpa [Occurrence.deedOf?] using hdeed
      obtain ⟨returned, hreturned⟩ := List.getElem?_of_mem hmem
      exact .inr ⟨ticket, returned, limit, claimed, hreturned⟩

/-- The outcomes that a caller answers were taken from the slot by its commands, or made up. -/
theorem Possible.returned_of_reply {program : ρ → Activity Reply} {c : Chronicle host ρ Reply}
    (h : Possible program c) (hprogram : Disciplined program)
    (hconducts : ∀ taken : Outcome → Prop, (∀ outcome, outcome.MadeUp → taken outcome) →
      ∀ r, Conducts True taken (program r) Reply.outcomesOf)
    {caller : Nat} {reply : Reply} (hreply : c.system.value? caller = some reply)
    {outcome : Outcome} (houtcome : outcome ∈ reply.outcomesOf) :
    outcome.MadeUp ∨ ∃ ticket returned, ReturnsAt c.history caller ticket outcome returned := by
  obtain ⟨rest, hcaller, hvalue⟩ := Option.bind_eq_some_iff.mp hreply
  cases rest with
  | act => cases hvalue
  | done value =>
      cases hvalue
      obtain ⟨r, -, hleads⟩ := h.accounted.leads caller _ hcaller
      have hfollows := hconducts (fun outcome => outcome.MadeUp ∨
        ∃ ticket returned, ReturnsAt c.history caller ticket outcome returned)
        (fun outcome => .inl) r
      refine (hleads.follows (fun deed hdeed => ?_) hfollows).2 outcome houtcome
      have hadmits := h.admits (.caller caller) deed hdeed
      obtain ⟨action, answer⟩ := deed
      cases action with
      | awaitResult ticket limit claimed =>
          exact h.madeUp_or_returned hprogram hdeed
      | acquire limit => cases limit <;> exact hadmits
      | _ => trivial

/-- What a caller answers was handed over to one of its commands, or made up. -/
theorem Possible.handover_of_reply {plan : Plan} {c : Chronicle host Request Reply}
    (h : Possible (Request.program plan) c) {caller : Nat} {reply : Reply}
    (hreply : c.system.value? caller = some reply) {outcome : Outcome}
    (houtcome : outcome ∈ reply.outcomesOf) :
    outcome.MadeUp ∨ ∃ a d p, Handover c.history caller outcome a d p := by
  have hprogram := Request.disciplined plan
  rcases h.returned_of_reply hprogram (fun taken hmadeUp r => r.conducts hmadeUp plan) hreply houtcome
      with hmadeUp | ⟨ticket, returned, hreturned⟩
  · exact .inl hmadeUp
  · rcases h.exists_handover hprogram hreturned with rfl | ⟨a, d, hover⟩
    · exact .inl (Outcome.madeUp_ofMessage _ _)
    · exact .inr ⟨a, d, returned, hover⟩

end Runs

/-- Whatever callers ask for and in whatever order things happen, at most one caller holds the gate
and at most one command is in flight; a result that is not made up was handed over to the command
that returns it, while it was in flight; and no record is handed over to two commands. -/
theorem single_flight (host : Host) (plan : Plan) (c : Chronicle host Request Reply)
    (h : Possible (Request.program plan) c) :
    (∀ i j, HoldsGate c.history i → HoldsGate c.history j → i = j) ∧
    (∀ i j t u, InFlight c.history i t → InFlight c.history j u → i = j ∧ t = u) ∧
    (∀ i ticket outcome p, ReturnsAt c.history i ticket outcome p →
      outcome = .sessionExited ∨ ∃ a d, Handover c.history i outcome a d p) ∧
    (∀ i reply outcome, c.system.value? i = some reply → outcome ∈ reply.outcomesOf →
      outcome.MadeUp ∨ ∃ a d p, Handover c.history i outcome a d p) ∧
    (∀ i outcome a d p, Handover c.history i outcome a d p →
      ∃ ticket, InFlight (c.history.take d) i ticket) ∧
    (∀ i j outcome outcome' a b d p q, Handover c.history i outcome a d p →
      Handover c.history j outcome' b d q → i = j ∧ a = b ∧ p = q) := by
  have hprogram := Request.disciplined plan
  refine ⟨fun i j => h.holdsGate_unique hprogram, fun i j t u => h.inFlight_unique hprogram,
    fun i ticket outcome p => h.exists_handover hprogram,
    fun i reply outcome hreply => h.handover_of_reply hreply,
    fun i outcome a d p => ?_, fun i j outcome outcome' a b d p q => h.handover_unique hprogram⟩
  exact h.inFlight_of_handover hprogram

/-- A record that is delivered while a command waits for it is handed over to that command. -/
theorem single_flight_of_delivery : ∃ c : Chronicle Host.blind Request Reply,
    Possible (Request.program Plan.plain) c ∧
      c.system.value? 0 = some (.outcomes [⟨.done, "^done", none⟩]) ∧
      ∃ a d p, Handover c.history 0 ⟨.done, "^done", none⟩ a d p := by
  obtain ⟨c, hturns, hvalue⟩ : ∃ c : Chronicle Host.blind Request Reply,
      Chronicle.turns? (Request.program Plan.plain) {} (List.flatten
        [[.request (.operation (.command "print x" 5)), .request (.result ⟨.done, "^done", none⟩)],
          Turn.acts 0 6, Turn.acts 1 2, Turn.acts 0 2]) = some c ∧
        c.system.value? 0 = some (Reply.outcomes [⟨.done, "^done", none⟩]) := ⟨_, rfl, rfl⟩
  have h := Possible.fresh.turns _ hturns
  obtain hmadeUp | hover := (single_flight _ _ c h).2.2.2.1 0 _ ⟨.done, "^done", none⟩ hvalue
    (List.mem_singleton.mpr rfl)
  · obtain ⟨status, message, hmadeUp⟩ := hmadeUp
    cases congrArg Outcome.payload hmadeUp
  · exact ⟨c, h, hvalue, hover⟩

end DebugBridge.Session
