import DebugBridge.Proofs.Session.Handover
import DebugBridge.Proofs.Session.Progress

/-!
# The window of a command

From the arming of the slot until its command returns there is a window in which any number of
records can be delivered, since a delivery neither disarms the slot nor waits for the command to
pick it up.  Each record replaces the one before it, so a command returns the last record of its
window, which is the next one after the arming only if nothing else came.

## Strategy

The invariant `Orderly` says what the slot holds while a command waits, so the answer of a command
that takes its next turn is known.  Windows of different commands do not overlap (`flight_unique`,
`Possible.returned_before_armed`), so what was replaced in one window is in no other.

## Main statements

* `later_record_replaces_first`: a command may return another record than the first of its window.
* `last_delivery_is_returned`: a command returns the last record of its window, and no command
  returns any other.
-/

namespace DebugBridge.Session

/-! ## What a waiting command picks up -/

/-- What a command picks up leaves the slot empty. -/
theorem Core.collect?_of_result {core : Core} {ticket : Nat} {outcome : Outcome}
    (harmed : core.slot.armed = some ticket) (hresult : core.slot.result = some outcome) :
    core.collect? ticket =
      some ({ core with slot := { core.slot with armed := none, result := none } }, outcome) := by
  simp [Core.collect?, harmed, hresult]

/-- A record is what a command returns: it was delivered in the window of the command, and nothing
was delivered after it until the command returned. -/
structure PickedUp (history : History) (delivered returned : Nat) : Prop where
  handover : ∃ caller outcome armed, Handover history caller outcome armed delivered returned
  latest : ∀ moment outcome, DeliversAt history outcome moment → moment < returned →
    moment ≤ delivered

section Runs

variable {host : Host} {ρ α : Type} {program : ρ → Activity α} {c : Chronicle host ρ α} {n : Nat}

/-- While a caller is about to wait for a result, the slot holds what was delivered last since it
armed the slot. -/
theorem Possible.airborne_of_await (h : Possible program c) (hprogram : Disciplined program)
    {ticket limit : Nat} {claimed : Bool} {rest : Outcome → Activity α}
    (hcaller : c.system.callers[n]? = some (.act (.awaitResult ticket limit claimed) rest)) :
    Airborne c.session.state.core.slot (.caller n) ticket 1 c.history := by
  have hpermits : (legOf (.caller n) c.history).Permits True (.awaitResult ticket limit claimed) :=
    h.accounted.permits hprogram hcaller (h.admits (.caller n))
  have hleg := Leg.permits_awaitResult.mp hpermits
  have hbusy : legOf (.caller n) c.history ≠ .idle := by simp [hleg]
  simpa [hleg, Slot.Matches, Leg.ticket?, Leg.lines] using
    ((h.orderly hprogram).of_not_idle hbusy).2.2

/-- A caller that waits for a result, when something was delivered since it armed the slot, neither
waits on nor gives up: it takes what was delivered last, and leaves the slot empty. -/
theorem Possible.picks_up (h : Possible program c) (hprogram : Disciplined program)
    {ticket limit : Nat} {claimed : Bool} {rest : Outcome → Activity α}
    (hcaller : c.system.callers[n]? = some (.act (.awaitResult ticket limit claimed) rest)) :
    ∃ armed, ArmsAt c.history n ticket armed ∧
      ∀ outcome, (deliveries (c.history.drop (armed + 1))).getLast? = some outcome →
        ∀ reaction, c.turn? program (.expire n reaction) = none ∧
          ∃ next, c.turn? program (.act n reaction) = some next ∧
            ReturnsAt next.history n ticket outcome c.history.length ∧
            next.system.callers[n]? = some (rest outcome) ∧
            next.session.state.core.slot.armed = none ∧
            next.session.state.core.slot.result = none := by
  obtain ⟨harmed, before, since, hhistory, -, hresult, -, -⟩ := h.airborne_of_await hprogram hcaller
  have hsince : c.history.drop (before.length + 1) = since := by
    rw [hhistory]
    simp [List.drop_append]
  refine ⟨before.length, ?_, ?_⟩
  · rw [ArmsAt, hhistory]
    simp
  intro outcome hlast reaction
  rw [hsince] at hlast
  -- what was delivered last is in the slot
  have hcollect := Core.collect?_of_result harmed (hresult.trans hlast)
  have hperform (reaction : Option Fault) :
      c.session.state.perform reaction (.awaitResult ticket limit claimed) = some
        ({ c.session.state with core := { c.session.state.core with
            slot := { c.session.state.core.slot with armed := none, result := none } } },
          outcome) := by
    rw [State.perform, hcollect]
    rfl
  refine ⟨Chronicle.turn?_expire_of_perform hcaller (withState_of_eq_some (hperform reaction)), _,
    Chronicle.turn?_act hcaller (withState_of_eq_some (hperform reaction)), ⟨limit, claimed, ?_⟩,
    ?_, rfl, rfl⟩
  · exact List.getElem?_concat_length
  · exact List.getElem?_set_self (List.getElem?_eq_some_iff.mp hcaller).1

/-- A command arms the slot only after each command that returns before it. -/
theorem Possible.returned_before_armed (h : Possible program c) (hprogram : Disciplined program)
    {i j t u b p q : Nat} {o o' : Outcome} (hp : ReturnsAt c.history i t o p)
    (hb : ArmsAt c.history j u b) (hq : ReturnsAt c.history j u o' q) (hlt : p < q) : p < b := by
  obtain ⟨limit, claimed, hget⟩ := hp
  rcases Nat.lt_trichotomy p b with hbefore | rfl | hafter
  · exact hbefore
  -- the slot is not armed by the return
  · cases hget.symm.trans hb
  -- the first would return in the window of the second
  · have hmem := mem_between.mpr ⟨p, hafter, hlt, hget⟩
    exact absurd trivial (h.quiet_of_returns hprogram hb hq _ hmem)

/-- What is delivered to a command before something else is, no command returns. -/
theorem Possible.not_pickedUp_of_replaced (h : Possible program c) (hprogram : Disciplined program)
    {i t armed earlier later returned : Nat} {o o' : Outcome} (harmed : ArmsAt c.history i t armed)
    (hreturned : ReturnsAt c.history i t o returned) (hlater : DeliversAt c.history o' later)
    (hafter : armed < earlier) (hlt : earlier < later) (hbefore : later < returned) (moment : Nat) :
    ¬ PickedUp c.history earlier moment := by
  rintro ⟨⟨j, outcome, first, hover⟩, hlatest⟩
  obtain ⟨u, hfirst, hmoment⟩ := hover.command
  -- a command that is in flight at that moment is the one that returns later
  obtain ⟨-, -, rfl⟩ := h.flight_unique hprogram harmed hreturned hfirst hmoment hafter
    (Nat.lt_trans hlt hbefore) hover.armed_lt hover.delivered_lt
  exact absurd (hlatest later o' hlater hbefore) (Nat.not_le_of_lt hlt)

end Runs

/-! ## What a command returns -/

/-- With two records in the window of a command, the command does not return the first. -/
theorem later_record_replaces_first :
    ¬ ∀ (host : Host) (plan : Plan) (c : Chronicle host Request Reply),
      Possible (Request.program plan) c →
      ∀ caller ticket outcome armed returned first, ArmsAt c.history caller ticket armed →
        ReturnsAt c.history caller ticket outcome returned →
        (deliveries (between c.history armed returned)).head? = some first → outcome = first := by
  intro hclaim
  obtain ⟨c, hturns, harmed, hreturned, hfirst⟩ : ∃ c : Chronicle Host.blind Request Reply,
      Chronicle.turns? (Request.program Plan.plain) {} (List.flatten
        [[.request (.operation (.command "print x" 5))], Turn.acts 0 6,
          [.request (.line "^done"), .request (.line "^error,msg=\"late\"")], Turn.acts 1 4,
          Turn.acts 2 5, Turn.acts 0 2]) = some c ∧
      c.history[3]? = some (.did (.caller 0) ⟨.arm, 1⟩) ∧
      c.history[15]? = some (.did (.caller 0) ⟨.awaitResult 1 5 true,
        ⟨.error, "^error,msg=\"late\"", some (.tuple [("msg", .text "late")])⟩⟩) ∧
      (deliveries (between c.history 3 15)).head? = some ⟨.done, "^done", none⟩ :=
    ⟨_, rfl, rfl, rfl, rfl⟩
  have heq := hclaim _ _ c (Possible.fresh.turns _ hturns) _ _ _ _ _ _ harmed
    ⟨5, true, hreturned⟩ hfirst
  cases congrArg Outcome.status heq

/-- A command that waits takes, as soon as it is its turn, the record that was delivered last since
it armed the slot.  What a command returns is the last record of its window, and the first one
exactly if the last one is no other; a record that another one follows in a window is returned by no
command, and the window of a command begins after all earlier returns. -/
theorem last_delivery_is_returned (host : Host) (plan : Plan) (c : Chronicle host Request Reply)
    (h : Possible (Request.program plan) c) :
    (∀ n ticket limit claimed rest,
      c.system.callers[n]? = some (.act (.awaitResult ticket limit claimed) rest) →
      ∃ armed, ArmsAt c.history n ticket armed ∧
        ∀ outcome, (deliveries (c.history.drop (armed + 1))).getLast? = some outcome →
          ∀ reaction, c.turn? (Request.program plan) (.expire n reaction) = none ∧
            ∃ next, c.turn? (Request.program plan) (.act n reaction) = some next ∧
              ReturnsAt next.history n ticket outcome c.history.length ∧
              next.system.callers[n]? = some (rest outcome) ∧
              next.session.state.core.slot.armed = none ∧
              next.session.state.core.slot.result = none) ∧
    (∀ caller ticket outcome returned, ReturnsAt c.history caller ticket outcome returned →
      ∃ armed, armed < returned ∧ ArmsAt c.history caller ticket armed ∧
        ((deliveries (between c.history armed returned)).getLast? = some outcome ∨
          deliveries (between c.history armed returned) = [] ∧ outcome = .sessionExited) ∧
        ∀ first, (deliveries (between c.history armed returned)).head? = some first →
          (outcome = first ↔
            (deliveries (between c.history armed returned)).getLast? = some first)) ∧
    (∀ caller ticket outcome armed returned, ArmsAt c.history caller ticket armed →
      ReturnsAt c.history caller ticket outcome returned →
      (∀ earlier later other, DeliversAt c.history other later → armed < earlier →
        earlier < later → later < returned → ∀ moment, ¬ PickedUp c.history earlier moment) ∧
      ∀ previous number before moment, ReturnsAt c.history previous number before moment →
        moment < returned → moment < armed) := by
  have hprogram := Request.disciplined plan
  refine ⟨?_, ?_, ?_⟩
  · intro n ticket limit claimed rest hcaller
    exact h.picks_up hprogram hcaller
  · intro caller ticket outcome returned hreturned
    obtain ⟨armed, hlt, harmed, -, -, hlast⟩ := h.exists_armed hprogram hreturned
    refine ⟨armed, hlt, harmed, hlast, ?_⟩
    intro first hfirst
    rcases hlast with hlast | ⟨hnone, -⟩
    · rw [hlast, Option.some.injEq]
    · rw [hnone] at hfirst
      cases hfirst
  · intro caller ticket outcome armed returned harmed hreturned
    refine ⟨?_, ?_⟩
    · intro earlier later other hlater hafter hlt hbefore
      exact h.not_pickedUp_of_replaced hprogram harmed hreturned hlater hafter hlt hbefore
    · intro previous number before moment hmoment hlt
      exact h.returned_before_armed hprogram hmoment harmed hreturned hlt

/-- Of two records that are delivered to a command, it takes the second when it is its turn. -/
theorem last_delivery_is_returned_of_two : ∃ c next : Chronicle Host.blind Request Reply,
    Possible (Request.program Plan.plain) c ∧
      c.turn? (Request.program Plan.plain) (.act 0 none) = some next ∧
      ReturnsAt next.history 0 1 ⟨.done, "^done,value=\"2\"", some (.tuple [("value", .text "2")])⟩
        14 := by
  obtain ⟨c, rest, hturns, hcaller, harmed, hlast, hlength⟩ :
      ∃ (c : Chronicle Host.blind Request Reply) (rest : Outcome → Activity Reply),
      Chronicle.turns? (Request.program Plan.plain) {} (List.flatten
        [[.request (.operation (.command "print x" 5))], Turn.acts 0 6,
          [.request (.line "^done,value=\"1\""), .request (.line "^done,value=\"2\"")],
          Turn.acts 1 4, Turn.acts 2 4]) = some c ∧
      c.system.callers[0]? = some (.act (.awaitResult 1 5 true) rest) ∧
      c.history[3]? = some (.did (.caller 0) ⟨.arm, 1⟩) ∧
      (deliveries (c.history.drop 4)).getLast? =
        some ⟨.done, "^done,value=\"2\"", some (.tuple [("value", .text "2")])⟩ ∧
      c.history.length = 14 :=
    ⟨_, _, rfl, rfl, rfl, rfl, rfl⟩
  have h := Possible.fresh.turns _ hturns
  obtain ⟨armed, hat, hpicks⟩ := (last_delivery_is_returned _ _ c h).1 _ _ _ _ _ hcaller
  obtain rfl := h.ticket_unique hat harmed
  obtain ⟨-, next, hnext, hreturned, -⟩ := hpicks _ hlast none
  exact ⟨c, next, h, hnext, hlength ▸ hreturned⟩

end DebugBridge.Session
