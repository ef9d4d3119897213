import DebugBridge.Proofs.Session.Answers

/-!
# Correlation of results

Results carry no mark of their commands.  When a debugger answers each line with one result record,
in order and however late, a session takes the right record exactly if no earlier one is owed; after
a command has given up, its late answer is returned by the next command.

## Strategy

What a command takes is the answer that has as many others before it as there were deliveries
before, while its own answer has as many before it as there were lines.  Lines without a delivery
are those of commands that have gone on without their answer.

## Main statements

* `late_answer_is_returned`: a command that follows on one that gave up returns its answer.
* `result_correlation`: which answer a command returns, and when that is its own.
-/

namespace DebugBridge.Session

/-! ## What is owed -/

/-- A caller that waits for a result goes on without it. -/
def Occurrence.Forsakes : Occurrence → Prop
  | .did _ ⟨.awaitResult _ _ _, outcome⟩ => outcome = .sessionExited
  | .gaveUp _ ⟨.awaitResult _ _ _, _⟩ => True
  | _ => False

theorem Leg.after_sent {delivers : Prop} {ticket : Nat} {action : Action}
    (hpermits : (sent ticket).Permits delivers action) (answer : action.Answer) :
    (sent ticket).after action answer = sent ticket ∨
      ∃ limit claimed, action = .awaitResult ticket limit claimed := by
  by_cases hsteers : action.Steers
  · cases action with
    | awaitResult other limit claimed =>
        obtain rfl : other = ticket := hpermits
        exact .inr ⟨limit, claimed, rfl⟩
    | acquire | release | arm | disarm | write => exact absurd hsteers hpermits
    | _ => exact absurd hsteers id
  · exact .inl (Leg.after_of_not_steers hsteers _ answer)

/-- A command whose line was written stays so until it returns or gives up. -/
theorem exists_await_of_sent {history : History} {occurrence : Occurrence} {actor : Actor}
    {ticket : Nat} (hsent : legOf actor history = .sent ticket)
    (hleft : legOf actor (history ++ [occurrence]) ≠ .sent ticket)
    (hpermits : ∀ deed, occurrence.deedOf? actor = some deed →
      (legOf actor history).Permits True deed.action) :
    ∃ limit claimed outcome,
      occurrence.deedOf? actor = some ⟨.awaitResult ticket limit claimed, outcome⟩ := by
  cases hdeed : occurrence.deedOf? actor with
  | none =>
      have hsame : legOf actor (history ++ [occurrence]) = legOf actor history := by
        simp [legOf, deedsOf, hdeed]
      exact absurd (hsame.trans hsent) hleft
  | some deed =>
      obtain ⟨action, answer⟩ := deed
      have hafter : legOf actor (history ++ [occurrence]) =
          (legOf actor history).after action answer := by
        simp [legOf, deedsOf, hdeed]
      have hpermits := hpermits _ hdeed
      rw [hafter, hsent] at hleft
      rw [hsent] at hpermits
      rcases Leg.after_sent hpermits answer with hsame | ⟨limit, claimed, rfl⟩
      · exact absurd hsame hleft
      · exact ⟨limit, claimed, answer, rfl⟩

/-- A line is written by a command that waits for its answer from then on. -/
theorem exists_sent_of_line? {history : History} {occurrence : Occurrence} {line : String}
    (hline : occurrence.line? = some line)
    (hpermits : ∀ actor deed, occurrence.deedOf? actor = some deed →
      (legOf actor history).Permits True deed.action) :
    ∃ actor ticket, legOf actor (history ++ [occurrence]) = .sent ticket := by
  cases occurrence with
  | gaveUp | happened => cases hline
  | did actor deed =>
      obtain ⟨action, answer⟩ := deed
      cases action with
      | write text =>
          obtain ⟨ticket, hleg⟩ := Leg.permits_write.mp (hpermits actor _ (deedOf?_did ..))
          cases answer with
          | none => exact ⟨actor, ticket, by simp [hleg, Leg.after]⟩
          | some fault => cases hline
      | _ => cases hline

section Runs

variable {host : Host} {ρ α : Type} {program : ρ → Activity α} {c : Chronicle host ρ α}

/-- When the slot is armed, no line waits for its answer. -/
theorem Possible.not_sent_of_arm (h : Possible program c) (hprogram : Disciplined program)
    {past future : History} {actor : Actor} {ticket : Nat}
    (hhistory : c.history = past ++ .did actor ⟨.arm, ticket⟩ :: future) (other : Actor)
    (number : Nat) : legOf other past ≠ .sent number := by
  obtain ⟨earlier, -, hearlier, rfl, -, hpermits⟩ := h.exists_effect hprogram hhistory
  have hleg := Leg.permits_arm.mp (hpermits actor _ (deedOf?_did ..))
  have hbusy : legOf actor earlier.history ≠ .idle := by simp [hleg]
  obtain ⟨hidle, -, -⟩ := (hearlier.orderly hprogram).of_not_idle hbusy
  by_cases hne : actor = other
  · subst hne
    simp [hleg]
  · simp [hidle other hne]

/-- A command that leaves its wait has been handed a record over, unless it goes on without it. -/
theorem Possible.exists_taken (h : Possible program c) (hprogram : Disciplined program)
    {past future : History} {occurrence : Occurrence} {actor : Actor} {ticket : Nat}
    (hhistory : c.history = past ++ occurrence :: future) (hforsakes : ¬ occurrence.Forsakes)
    (hsent : legOf actor past = .sent ticket)
    (hleft : legOf actor (past ++ [occurrence]) ≠ .sent ticket) :
    ∃ before since, past = before ++ .did actor ⟨.arm, ticket⟩ :: since ∧
      (written since).length = 1 ∧ deliveries since ≠ [] := by
  obtain ⟨-, -, -, -, -, hpermits⟩ := h.exists_effect hprogram hhistory
  obtain ⟨limit, claimed, outcome, hdeed⟩ := exists_await_of_sent hsent hleft (hpermits actor)
  cases occurrence with
  | happened => cases hdeed
  | gaveUp other deed =>
      obtain ⟨rfl, rfl⟩ := by simpa [Occurrence.deedOf?] using hdeed
      exact absurd trivial hforsakes
  | did other deed =>
      obtain ⟨rfl, rfl⟩ := by simpa [Occurrence.deedOf?] using hdeed
      obtain ⟨before, since, hpast, -, hone, hlast | ⟨-, hexited⟩⟩ := h.returns hprogram hhistory
      · exact ⟨before, since, hpast, hone, List.ne_nil_of_mem (List.mem_of_getLast? hlast)⟩
      · exact absurd hexited hforsakes

/-- Whenever no command waits for its answer, every line was followed by a delivery, provided that
no command has gone on without its answer. -/
theorem Possible.length_written_le (h : Possible program c) (hprogram : Disciplined program)
    {past future : History} (hhistory : c.history = past ++ future)
    (hnone : ∀ occurrence ∈ past, ¬ occurrence.Forsakes)
    (hsent : ∀ actor ticket, legOf actor past ≠ .sent ticket) :
    (written past).length ≤ (deliveries past).length := by
  generalize hlength : past.length = length
  induction length using Nat.strongRecOn generalizing past future with
  | ind length ih =>
      rcases List.eq_nil_or_concat past with rfl | ⟨before, occurrence, heq⟩
      · exact Nat.le_refl 0
      rw [List.concat_eq_append] at heq
      subst heq
      rw [List.length_append, List.length_singleton] at hlength
      rw [List.append_assoc] at hhistory
      obtain ⟨-, -, -, -, -, hpermits⟩ := h.exists_effect hprogram hhistory
      -- no line is written last, or else its command would wait
      have hline : occurrence.line? = none := by
        cases hline : occurrence.line? with
        | none => rfl
        | some line =>
            obtain ⟨actor, ticket, hleg⟩ := exists_sent_of_line? hline hpermits
            exact absurd hleg (hsent actor ticket)
      have hsame : (written (before ++ [occurrence])).length = (written before).length := by
        simp [written_singleton, hline]
      rw [hsame, deliveries_append, List.length_append]
      refine Nat.le_trans ?_ (Nat.le_add_right ..)
      by_cases hwaits : ∃ actor ticket, legOf actor before = .sent ticket
      -- a command has stopped waiting: nobody waited when it armed the slot
      · obtain ⟨actor, ticket, hleg⟩ := hwaits
        obtain ⟨earlier, since, rfl, hone, htaken⟩ := h.exists_taken hprogram hhistory
          (hnone occurrence (by simp)) hleg (hsent actor ticket)
        have hle : (written earlier).length ≤ (deliveries earlier).length := by
          refine ih earlier.length ?_ (by simpa using hhistory)
            (fun other hmem => hnone other (by simp [hmem]))
            (h.not_sent_of_arm hprogram (by simpa using hhistory)) rfl
          rw [← hlength, List.length_append]
          omega
        have hdelivered : 0 < (deliveries since).length := List.length_pos_iff.mpr htaken
        simp only [written_append, deliveries_append, List.length_append]
        show _ + (written since).length ≤ _ + (deliveries since).length
        omega
      · exact ih before.length (by omega) hhistory
          (fun other hmem => hnone other (by simp [hmem]))
          (fun actor ticket hleg => hwaits ⟨actor, ticket, hleg⟩) rfl

end Runs

/-! ## Results -/

/-- How many lines were written before a moment. -/
def linesBefore (history : History) (moment : Nat) : Nat :=
  (written (history.take moment)).length

/-- How many records were delivered before a moment. -/
def deliveriesBefore (history : History) (moment : Nat) : Nat :=
  (deliveries (history.take moment)).length

/-- The outcome of a command that printed a value. -/
def printedValue (text : String) : Outcome :=
  ⟨.done, "^done,value=\"" ++ text ++ "\"", some (.tuple [("value", .text text)])⟩

theorem printedValue_ne_madeUp (text : String) : ¬ (printedValue text).MadeUp := by
  rintro ⟨status, message, heq⟩
  have hpayload := congrArg Outcome.payload heq
  simp [printedValue, Outcome.ofMessage] at hpayload

/-- The answer to a command that has given up, which comes when the next command waits for its own,
is returned by that one. -/
theorem late_answer_is_returned :
    ¬ ∀ (host : Host) (plan : Plan) (c : Chronicle host Operation Reply),
      Possible (Operation.program plan) c → Answering c.history →
      ∀ caller ticket outcome armed returned, ArmsAt c.history caller ticket armed →
        ReturnsAt c.history caller ticket outcome returned → ¬ outcome.MadeUp →
        (answers c.history)[linesBefore c.history armed]? = some outcome := by
  intro hclaim
  obtain ⟨c, hturns, hanswering, harmed, hreturned, hown⟩ :
      ∃ c : Chronicle Host.blind Operation Reply,
        Chronicle.turns? (Operation.program Plan.plain) {} (List.flatten
          [[.request .startConnected], Turn.acts 0 2, [.request (.command "print a" 5)],
            Turn.acts 1 6, [.expire 1 none], Turn.acts 1 1, [.request (.command "print b" 5)],
            Turn.acts 2 6, [.happen (.print .output (.line "^done,value=\"1\""))],
            List.replicate 5 (.happen (.advance (.reader .output))), Turn.acts 2 2,
            [.happen (.print .output (.line "^done,value=\"2\""))]]) = some c ∧
        decide (Answering c.history) = true ∧
        c.history[13]? = some (.did (.caller 2) ⟨.arm, 2⟩) ∧
        c.history[21]? =
          some (.did (.caller 2) ⟨.awaitResult 2 5 true, printedValue "1"⟩) ∧
        (answers c.history)[linesBefore c.history 13]? = some (printedValue "2") :=
    ⟨_, rfl, rfl, rfl, rfl, rfl⟩
  have hother := hclaim _ _ c (Possible.fresh.turns _ hturns) (of_decide_eq_true hanswering) _ _ _
    _ _ harmed ⟨5, true, hreturned⟩ (printedValue_ne_madeUp _)
  rw [hown] at hother
  simp [printedValue] at hother

/-- A command that armed the slot at one moment takes, at another, the answer that has so many
others before it; its line has as many lines before it as were written when it armed the slot. -/
structure Takes (history : History) (caller : Nat) (outcome : Outcome)
    (armed returned number : Nat) : Prop where
  command : ∃ ticket, ArmsAt history caller ticket armed ∧
    ReturnsAt history caller ticket outcome returned
  armed_lt : armed < returned
  lines : linesBefore history returned = linesBefore history armed + 1
  deliveries : deliveriesBefore history returned = number + 1
  fresh : deliveriesBefore history armed ≤ number
  answer : (answers history)[number]? = some outcome
  answered : number ≤ linesBefore history armed

section Runs

variable {host : Host} {plan : Plan} {c : Chronicle host Operation Reply}

/-- What was delivered before a moment are the first answers, and there were no more than lines. -/
theorem Possible.deliveries_take_prefix (h : Possible (Operation.program plan) c)
    (hanswering : Answering c.history) {moment : Nat} {occurrence : Occurrence}
    (hmoment : c.history[moment]? = some occurrence) :
    deliveries (c.history.take moment) <+: answers c.history ∧
      deliveriesBefore c.history moment ≤ linesBefore c.history moment := by
  obtain ⟨earlier, -, hearlier, hpast, -, -⟩ :=
    h.exists_effect (Operation.disciplined plan) (eq_take_append_drop hmoment)
  have hbefore : Answering earlier.history := hpast ▸ hanswering.take moment
  have hfirst := hearlier.deliveries_prefix hbefore
  have hlength := Nat.le_trans hfirst.length_le hbefore.length_answers_le
  rw [hpast] at hfirst hlength
  exact ⟨hfirst.trans ((List.take_prefix moment c.history).filterMap _), hlength⟩

/-- A command that returns takes an answer, unless the session has ended. -/
theorem Possible.exists_takes (h : Possible (Operation.program plan) c)
    (hanswering : Answering c.history) {caller ticket returned : Nat} {outcome : Outcome}
    (hreturned : ReturnsAt c.history caller ticket outcome returned) :
    outcome = .sessionExited ∨
      ∃ armed number, Takes c.history caller outcome armed returned number := by
  obtain ⟨armed, hlt, harmed, -, hlines, hlast | ⟨-, hexited⟩⟩ :=
    h.exists_armed (Operation.disciplined plan) hreturned
  · right
    have ⟨limit, claimed, hget⟩ := hreturned
    obtain ⟨hfirst, hle⟩ := h.deliveries_take_prefix hanswering hget
    obtain ⟨others, hothers⟩ := List.getLast?_eq_some_iff.mp hlast
    -- one line and at least one delivery lie between the two moments
    have hsplit := take_eq_append_between hlt harmed
    have hwritten : linesBefore c.history returned = linesBefore c.history armed + 1 := by
      rw [linesBefore, hsplit, written_append, List.length_append, linesBefore, ← hlines]
      rfl
    have hdelivered : deliveries (c.history.take returned) =
        deliveries (c.history.take armed) ++ others ++ [outcome] := by
      rw [hsplit, deliveries_append, List.append_assoc, ← hothers]
      rfl
    have hcount : deliveriesBefore c.history returned =
        deliveriesBefore c.history armed + others.length + 1 := by
      simp [deliveriesBefore, hdelivered]
      omega
    refine ⟨armed, deliveriesBefore c.history armed + others.length,
      { command := ⟨ticket, harmed, hreturned⟩
        armed_lt := hlt
        lines := hwritten
        deliveries := hcount
        fresh := Nat.le_add_right ..
        answer := ?_
        answered := by omega }⟩
    obtain ⟨more, hmore⟩ := hfirst
    rw [← hmore, hdelivered]
    simp [deliveriesBefore]
  · exact .inl hexited

/-- When the slot is armed, nothing is owed as long as every command that waited took a record. -/
theorem Possible.deliveriesBefore_eq (h : Possible (Operation.program plan) c)
    (hanswering : Answering c.history) {caller ticket armed : Nat}
    (harmed : ArmsAt c.history caller ticket armed)
    (hnone : ∀ occurrence : Occurrence, occurrence ∈ c.history.take armed → ¬ occurrence.Forsakes) :
    deliveriesBefore c.history armed = linesBefore c.history armed := by
  have hsplit := eq_take_append_drop harmed
  have hprogram := Operation.disciplined plan
  have hle := (h.deliveries_take_prefix hanswering harmed).2
  have hge := h.length_written_le hprogram hsplit hnone (h.not_sent_of_arm hprogram hsplit)
  exact Nat.le_antisymm hle hge

end Runs

/-- The answers of the debugger go to the commands in order, one for each line that was written and
whether its command still waits or not.  A result that a command returns is thus the answer to the
line that has as many lines before it as there were deliveries before that result; it is the
command's own exactly if nothing is owed when it is returned.  This is the case if nothing was owed
when the command armed the slot, as long as no command before it has gone on without its answer. -/
theorem result_correlation (host : Host) (plan : Plan) (c : Chronicle host Operation Reply)
    (h : Possible (Operation.program plan) c) (hanswering : Answering c.history) :
    (∀ caller ticket outcome returned, ReturnsAt c.history caller ticket outcome returned →
      outcome = .sessionExited ∨ ∃ armed number,
        Takes c.history caller outcome armed returned number ∧
        (number = linesBefore c.history armed ↔
          deliveriesBefore c.history returned = linesBefore c.history returned) ∧
        (deliveriesBefore c.history armed = linesBefore c.history armed →
          number = linesBefore c.history armed) ∧
        ((∀ occurrence : Occurrence, occurrence ∈ c.history.take armed → ¬ occurrence.Forsakes) →
          number = linesBefore c.history armed)) ∧
    (∀ caller reply outcome, c.system.value? caller = some reply → outcome ∈ reply.outcomesOf →
      outcome.MadeUp ∨
        ∃ ticket returned, ReturnsAt c.history caller ticket outcome returned) := by
  refine ⟨fun caller ticket outcome returned hreturned => ?_,
    fun caller reply outcome hreply houtcome => h.returned_of_reply (Operation.disciplined plan)
      (fun taken hmadeUp r => r.conducts hmadeUp plan) hreply houtcome⟩
  rcases h.exists_takes hanswering hreturned with hexited | ⟨armed, number, htakes⟩
  · exact .inl hexited
  · have hlines := htakes.lines
    have hdeliveries := htakes.deliveries
    have hfresh := htakes.fresh
    have hanswered := htakes.answered
    refine .inr ⟨armed, number, htakes, by omega, by omega, ?_⟩
    intro hnone
    obtain ⟨used, harmed, -⟩ := htakes.command
    have howed := h.deliveriesBefore_eq hanswering harmed hnone
    omega

/-- The first command returns its own answer when it waits long enough. -/
theorem result_correlation_of_answer : ∃ c : Chronicle Host.blind Operation Reply,
    Possible (Operation.program Plan.plain) c ∧ Answering c.history ∧
      ∃ armed, Takes c.history 1 (printedValue "1") armed 13 (linesBefore c.history armed) := by
  obtain ⟨c, hturns, hanswering, hreturned, hnothing⟩ :
      ∃ c : Chronicle Host.blind Operation Reply,
        Chronicle.turns? (Operation.program Plan.plain) {} (List.flatten
          [[.request .startConnected], Turn.acts 0 2, [.request (.command "print a" 5)],
            Turn.acts 1 6, [.happen (.print .output (.line "^done,value=\"1\""))],
            List.replicate 5 (.happen (.advance (.reader .output))), Turn.acts 1 2]) = some c ∧
        decide (Answering c.history) = true ∧
        c.history[13]? =
          some (.did (.caller 1) ⟨.awaitResult 1 5 true, printedValue "1"⟩) ∧
        deliveriesBefore c.history 13 = linesBefore c.history 13 := ⟨_, rfl, rfl, rfl, rfl⟩
  have h := Possible.fresh.turns _ hturns
  have hanswering := of_decide_eq_true hanswering
  rcases (result_correlation _ _ c h hanswering).1 _ _ _ _ ⟨5, true, hreturned⟩
      with hexited | ⟨armed, number, htakes, hown, -⟩
  · exact absurd (hexited ▸ Outcome.madeUp_ofMessage _ _) (printedValue_ne_madeUp "1")
  · obtain rfl := hown.mpr hnothing
    exact ⟨c, h, hanswering, armed, htakes⟩

end DebugBridge.Session
