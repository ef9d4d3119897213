import DebugBridge.Proofs.Session.Lifecycle

/-!
# What the success of a start says

A start looks whether the session has ended before each command of its warm-up, and not again.  When
all commands were accepted it succeeds.  So its success says that the session went on when it looked
for the last time, which is before the last command of the warm-up was written; what has happened
since then does not matter to it.

## Strategy

* A start that succeeds has done `Launched.of_ok`: it has looked, each time without finding the end,
  and has ended with `finishStart`.
* The answer of a look is what the history says (`Possible.answer_isExited_iff`), so the end can only
  lie behind the last one.
* At the `Moment` of its last step, a start leaves the session in use (`Moment.isLive_of_goesOn`) or
  ended, as it found it (`Moment.phase_of_isExited`).

## Main statements

* `success_vouches_until_last_look`: what a start that has returned says about the session.
* `success_of_dead_session`: it may have ended behind the last look.
-/

namespace DebugBridge.Session

/-! ## What a start has done that has succeeded -/

/-- Who has looked has looked for a last time. -/
theorem exists_last_look {deeds : List (Deed interface)} {exited : Bool}
    (h : (⟨.isExited, exited⟩ : Deed interface) ∈ deeds) :
    ∃ first answer rest, deeds = first ++ (⟨.isExited, answer⟩ : Deed interface) :: rest ∧
      ∀ deed ∈ rest, deed.action ≠ .isExited := by
  induction deeds generalizing exited with
  | nil => cases h
  | cons head tail ih =>
      by_cases hlater : ∃ answer, (⟨.isExited, answer⟩ : Deed interface) ∈ tail
      · obtain ⟨answer, hanswer⟩ := hlater
        obtain ⟨first, answer, rest, rfl, hlast⟩ := ih hanswer
        exact ⟨head :: first, answer, rest, rfl, hlast⟩
      · obtain rfl | hmem := List.mem_cons.mp h
        · refine ⟨[], exited, tail, rfl, ?_⟩
          rintro ⟨action, answer⟩ hdeed rfl
          exact hlater ⟨answer, hdeed⟩
        · exact absurd ⟨exited, hmem⟩ hlater

/-- A command that was accepted has looked whether the session has ended. -/
theorem execute_looks (config : Config) (command : String) :
    (execute config command).Yields fun outcome deeds =>
      isAccepted outcome = true → (⟨.isExited, false⟩ : Deed interface) ∈ deeds := by
  refine (runCommand_ends config (commandLine command []) config.commandLimit).mono ?_
  rintro outcome _ ⟨granted, way, tenure, rfl, hending⟩ haccepted
  have hlook : (⟨.isExited, false⟩ : Deed interface) ∈ tenure := by
    cases hending with
    | exited => cases haccepted
    | rejected => exact List.mem_cons_self
    | unwritten | waited => exact List.mem_append_left _ List.mem_cons_self
  exact List.mem_cons_of_mem _ (List.mem_append_left _ hlook)

/-- What a start has done that has succeeded: it has looked, and has not found the end. -/
theorem Launched.of_ok {plan : Plan} {deeds : List (Deed interface)}
    (h : Launched plan (.ok ()) deeds) : ∃ rest kept,
      deeds = (⟨.beginStart, true⟩ :: rest) ++ [⟨.finishStart, kept⟩] ∧
      (⟨.isExited, false⟩ : Deed interface) ∈ rest ∧
      (⟨.isExited, true⟩ : Deed interface) ∉ rest := by
  cases h with
  | @brought link _ _ hlink hbrought =>
      cases hbrought with
      | @succeeded watching warming kept hwatching hwarming =>
          generalize hcommands : plan.config.warmUp plan.target = commands at hwarming
          cases hwarming with
          | all hcarried haccepted =>
              refine ⟨link :: (watching ++ ⟨.enableCommands, ()⟩ ::
                ⟨.awaitOutput plan.config.readyLimit, true⟩ :: warming), kept, by simp, ?_, ?_⟩
              · have hlook : (⟨.isExited, false⟩ : Deed interface) ∈ warming := by
                  cases hcarried with
                  | nil => simp [Config.warmUp] at hcommands
                  | cons hcommand hrest =>
                      have hlooks := (execute_looks plan.config _).of_leads hcommand
                      exact List.mem_append_left _
                        (hlooks (List.forall_mem_cons.mp haccepted).1)
                simp [hlook]
              · have hunwatched : (⟨.isExited, true⟩ : Deed interface) ∉ watching := fun hmem =>
                  absurd (hwatching _ hmem) id
                have hlink : link ≠ ⟨.isExited, true⟩ := by
                  rcases hlink with rfl | rfl <;> simp
                simp [hlink.symm, hunwatched, (hcarried.lines_eq haccepted).2]

/-! ## The last step of a start -/

/-- A session in use is ready, or as the last execution record says. -/
def Phase.IsLive (phase : Phase) : Prop :=
  phase = .ready ∨ phase = .running ∨ phase = .stopped

theorem isLive_phaseSince {since : History} (h : since.any Occurrence.endsStart = true) :
    (phaseSince since).IsLive := by
  unfold phaseSince Phase.IsLive
  split
  · split <;> simp
  · simp [h]

section Steps

variable {host : Host} {ρ α : Type} {program : ρ → Activity α}
  {c earlier later : Chronicle host ρ α} {n : Nat} {kept : Bool}

/-- A start that ends while the session goes on leaves it in use. -/
theorem Moment.isLive_of_goesOn (h : Moment program c earlier later)
    (hhistory : later.history = earlier.history ++ [.did (.caller n) ⟨.finishStart, kept⟩])
    (hbegun : .did (.caller n) ⟨.beginStart, true⟩ ∈ earlier.history)
    (hgoesOn : earlier.session.state.core.isExited = false) :
    later.session.state.core.phase.IsLive := by
  obtain ⟨past, since, hsplit⟩ := List.append_of_mem hbegun
  have hlater : later.history = past ++ .did (.caller n) ⟨.beginStart, true⟩ ::
      (since ++ [.did (.caller n) ⟨.finishStart, kept⟩]) := by
    simp [hhistory, hsplit]
  have hstill : later.session.state.core.isExited = false := by
    cases h.effect hhistory with
    | did hperform => exact (perform_isExited (by simp) hperform).trans hgoesOn
  rw [h.possible_later.phase_since hlater hstill]
  exact isLive_phaseSince (by simp [Occurrence.endsStart])

/-- A start that ends after the session did leaves it as it is. -/
theorem Moment.phase_of_isExited (h : Moment program c earlier later)
    (hhistory : later.history = earlier.history ++ [.did (.caller n) ⟨.finishStart, kept⟩])
    (hexited : earlier.session.state.core.isExited = true) :
    kept = false ∧ later.session.state.core.phase = .exited := by
  have heffect := h.effect hhistory
  have hearlier := (h.possible.agrees.hasEnded hexited).phase
  have hfalse : kept = false := by
    rw [← Bool.not_eq_true]
    intro hkept
    have hstarting := heffect.phase_of_readies hkept
    rw [hearlier] at hstarting
    cases hstarting
  refine ⟨hfalse, ?_⟩
  rw [heffect.phase_eq, hfalse]
  exact hearlier

end Steps

/-! ## Main result -/

section Main

variable {host : Host} {plan : Plan} {c : Chronicle host Request Reply} {n : Nat}

theorem ended_of_mem {past middle : History} {look : Occurrence} {exited : Bool}
    (hlook : look.deedOf? (.caller n) = some ⟨.isExited, exited⟩) (hpast : ¬ Ended past)
    (h : Ended (past ++ look :: middle)) : Ended middle := by
  obtain ⟨ender, hmem⟩ := h
  rcases List.mem_append.mp hmem with hmem | hmem
  · exact absurd ⟨ender, hmem⟩ hpast
  · obtain rfl | hmem := List.mem_cons.mp hmem
    · obtain ⟨-, heq⟩ := Option.ite_some_none_eq_some.mp hlook
      cases heq
    · exact ⟨ender, hmem⟩

/-- A start that has returned, whatever else was going on.  If it has succeeded, the session went on
when it looked for the last time; and if it still did when the start came to its last step, then this
step has left the session in use.  If the session had ended at one of its looks, it has failed. -/
theorem success_vouches_until_last_look (host : Host) (plan : Plan)
    (c : Chronicle host Request Reply) (h : Possible (Request.program plan) c) (n : Nat)
    (operation : Operation) (hstarts : operation.Starts)
    (hrequest : c.requests[n]? = some (.operation operation)) (result : Except Fault Unit)
    (hreply : c.system.value? n = some (.started result)) :
    (result = .ok () → ∃ (earlier later : Chronicle host Request Reply) (past middle : History)
        (look : Occurrence) (kept : Bool), Moment (Request.program plan) c earlier later ∧
      earlier.history = past ++ look :: middle ∧
      later.history = earlier.history ++ [.did (.caller n) ⟨.finishStart, kept⟩] ∧
      look.deedOf? (.caller n) = some ⟨.isExited, false⟩ ∧ ¬ Ended past ∧
      (∀ deed ∈ deedsOf (.caller n) middle, deed.action ≠ .isExited) ∧
      (earlier.session.state.core.isExited = false → later.session.state.core.phase.IsLive) ∧
      (earlier.session.state.core.isExited = true →
        Ended middle ∧ kept = false ∧ later.session.state.core.phase = .exited)) ∧
    ∀ past look future exited, c.history = past ++ look :: future →
      look.deedOf? (.caller n) = some ⟨.isExited, exited⟩ → Ended past →
      ∃ fault, result = .error fault := by
  obtain ⟨other, hsame, hlaunched⟩ := h.launched hstarts hrequest hreply
  cases hsame
  constructor
  · rintro rfl
    obtain ⟨rest, kept, hdeeds, hlooked, hunseen⟩ := hlaunched.of_ok
    obtain ⟨before, after, hhistory, hbefore, -⟩ := h.exists_did hdeeds fun _ _ => rfl
    obtain ⟨earlier, later, hmoment, rfl, hlater⟩ := h.exists_moment hhistory
    obtain ⟨first, exited, final, rfl, hlast⟩ := exists_last_look hlooked
    obtain rfl : exited = false := by
      cases exited with
      | false => rfl
      | true => exact absurd (List.mem_append_right _ List.mem_cons_self) hunseen
    have hlooks : deedsOf (.caller n) earlier.history =
        (⟨.beginStart, true⟩ :: first) ++ ⟨.isExited, false⟩ :: final := hbefore
    obtain ⟨past, look, middle, hsplit, hlook, -, hmiddle⟩ := exists_split_of_deedsOf hlooks
    have hpast : ¬ Ended past := fun hended =>
      nomatch (hmoment.possible.answer_isExited_iff hsplit hlook).mpr hended
    refine ⟨earlier, later, past, middle, look, kept, hmoment, hsplit, hlater, hlook, hpast,
      hmiddle ▸ hlast, ?_, ?_⟩
    · refine hmoment.isLive_of_goesOn hlater (hmoment.possible.did_of_mem_deedsOf ?_ trivial)
      rw [hbefore]
      exact List.mem_cons_self
    · intro hexited
      have hended := hmoment.possible.isExited_iff.mp hexited
      exact ⟨ended_of_mem hlook hpast (hsplit ▸ hended), hmoment.phase_of_isExited hlater hexited⟩
  · intro past look future exited hhistory hlook hended
    obtain rfl : exited = true := (h.answer_isExited_iff hhistory hlook).mpr hended
    cases result with
    | error fault => exact ⟨fault, rfl⟩
    | ok value =>
        obtain ⟨rest, kept, hdeeds, -, hunseen⟩ := hlaunched.of_ok
        have hmem : (⟨.isExited, true⟩ : Deed interface) ∈ deedsOf (.caller n) c.history := by
          rw [hhistory, deedsOf_append, ← List.singleton_append, deedsOf_append]
          exact List.mem_append_right _ (List.mem_append_left _ (by simp [deedsOf, hlook]))
        rw [hdeeds] at hmem
        simp [hunseen] at hmem

/-- The debugger comes up and accepts both commands of the warm-up. -/
theorem success_vouches_until_last_look_of_done : ∃ c : Chronicle Host.blind Request Reply,
    Possible (Request.program Plan.plain) c ∧
      c.system.value? 0 = some (.started (.ok ())) ∧
      ∃ earlier later past look middle kept, Moment (Request.program Plan.plain) c earlier later ∧
        earlier.history = past ++ look :: middle ∧
        later.history = earlier.history ++ [.did (.caller 0) ⟨.finishStart, kept⟩] ∧
        look.deedOf? (.caller 0) = some ⟨.isExited, false⟩ ∧ ¬ Ended past ∧
        (earlier.session.state.core.isExited = false → later.session.state.core.phase.IsLive) := by
  obtain ⟨c, hturns, hrequest, hreply⟩ : ∃ c : Chronicle Host.blind Request Reply,
      Chronicle.turns? (Request.program Plan.plain) {} (List.flatten
        [[.request (.operation .startConnected)], Turn.acts 0 4, Turn.prints "(gdb)" 3,
          Turn.acts 0 7, Turn.prints "^done" 5, Turn.acts 0 8, Turn.prints "^done" 5,
          Turn.acts 0 3]) = some c ∧
      c.requests[0]? = some (.operation .startConnected) ∧
      c.system.value? 0 = some (Reply.started (.ok ())) := ⟨_, rfl, rfl, rfl⟩
  have h := Possible.fresh.turns _ hturns
  obtain ⟨hsucceeds, -⟩ :=
    success_vouches_until_last_look _ _ c h 0 .startConnected trivial hrequest (.ok ()) hreply
  obtain ⟨earlier, later, past, middle, look, kept, hmoment, hsplit, hlater, hlook, hpast, -, hlive,
    -⟩ := hsucceeds rfl
  exact ⟨c, h, hreply, earlier, later, past, look, middle, kept, hmoment, hsplit, hlater, hlook,
    hpast, hlive⟩

/-- The debugger answers the last command of the warm-up and is gone before the caller comes to see
the answer: the start succeeds on a session that has ended. -/
theorem success_of_dead_session : ∃ earlier later : Chronicle Host.blind Request Reply,
    Possible (Request.program Plan.plain) earlier ∧
      earlier.turn? (Request.program Plan.plain) (.act 0 none) = some later ∧
      later.history = earlier.history ++ [.did (.caller 0) ⟨.finishStart, false⟩] ∧
      earlier.session.state.core.isExited = true ∧
      later.session.state.core.phase = .exited ∧
      later.system.value? 0 = some (.started (.ok ())) := by
  obtain ⟨earlier, later, hturns, hturn, hlater, hexited, hphase, hreply⟩ :
      ∃ earlier later : Chronicle Host.blind Request Reply,
      Chronicle.turns? (Request.program Plan.plain) {} (List.flatten
        [[.request (.operation .startConnected)], Turn.acts 0 4, Turn.prints "(gdb)" 3,
          Turn.acts 0 7, Turn.prints "^done" 5, Turn.acts 0 8, Turn.prints "^done" 5,
          [.happen (.close .output)], List.replicate 3 (.happen (.advance (.reader .output))),
          Turn.acts 0 2]) = some earlier ∧
      earlier.turn? (Request.program Plan.plain) (.act 0 none) = some later ∧
      later.history = earlier.history ++ [.did (.caller 0) ⟨.finishStart, false⟩] ∧
      earlier.session.state.core.isExited = true ∧
      later.session.state.core.phase = .exited ∧
      later.system.value? 0 = some (Reply.started (.ok ())) := ⟨_, _, rfl, rfl, rfl, rfl, rfl, rfl⟩
  exact ⟨earlier, later, Possible.fresh.turns _ hturns, hturn, hlater, hexited, hphase, hreply⟩

end Main

end DebugBridge.Session
