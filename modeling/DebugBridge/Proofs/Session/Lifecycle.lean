import DebugBridge.Proofs.Session.Startup

/-!
# The life of a session

What the parties of a session share can be used in any order: a start can begin and end, the session
can be ended, execution records and results can come, and what the debugger does is noted, by
whoever it is and as often as they like.  Through all of that a session lives only once.

## Strategy

* `Passes` is any sequence of uses, not only those that the programs of the parties make.
* The phase is what the sequence makes of it (`phaseOf`): the end of the session decides, then the
  last execution record, then how far the start has come.  One use preserves this, because of what
  it answers (`Core.Lives.effect`).
* Each use leaves a session where it is or brings it farther (`Effect.rank_le`), and so a phase that
  was left does not come back.

## Main statements

* `Passes.lives`: the invariant.
* `lives_once`: what a session can go through.
-/

namespace DebugBridge.Session

/-- What was done leads from one core to another. -/
inductive Passes (start : Core) : History → Core → Prop
  | nothing : Passes start [] start
  | more {history : History} {state after : State} {occurrence : Occurrence}
      (h : Passes start history state.core) (heffect : Effect state occurrence after) :
      Passes start (history ++ [occurrence]) after.core

theorem Passes.trans {first second : History} {start middle last : Core}
    (hfirst : Passes start first middle) (hsecond : Passes middle second last) :
    Passes start (first ++ second) last := by
  induction hsecond with
  | nothing =>
      rw [List.append_nil]
      exact hfirst
  | more _ heffect ih =>
      rw [← List.append_assoc]
      exact ih.more heffect

/-- One use of a core, by somebody who need not wait. -/
theorem Passes.one {core after : Core} {actor : Actor} {action : Action} {answer : action.Answer}
    (hperform : State.perform none action { core } = some ({ core := after }, answer)) :
    Passes core [.did actor ⟨action, answer⟩] after := by
  have hnothing : Passes core [] ({ core } : State).core := .nothing
  exact hnothing.more (.did hperform)

/-- Runs of a session are among the sequences. -/
theorem Possible.passes {host : Host} {ρ α : Type} {program : ρ → Activity α}
    {c : Chronicle host ρ α} (h : Possible program c) :
    Passes {} c.history c.session.state.core :=
  h.of_effect (fun core history => Passes {} history core) .nothing
    fun _ _ _ heffect hbefore => hbefore.more heffect

/-! ## What is answered -/

namespace Occurrence

/-- Whether the start of a session begins. -/
def begins : Occurrence → Bool
  | .did _ ⟨.beginStart, idle⟩ => idle
  | _ => false

/-- Whether a session becomes ready. -/
def readies : Occurrence → Bool
  | .did _ ⟨.finishStart, kept⟩ => kept
  | _ => false

/-- Whether a session ends. -/
def ends : Occurrence → Bool
  | .did _ ⟨.markExited, ended⟩ => ended
  | _ => false

end Occurrence

section Answers

variable {state after : State} {occurrence : Occurrence}

theorem Effect.phase_of_begins (h : Effect state occurrence after)
    (hbegins : occurrence.begins = true) : state.core.phase = .idle := by
  unfold Occurrence.begins at hbegins
  split at hbegins
  · subst hbegins
    cases h with
    | did hperform =>
        simp only [State.perform, State.askCore, Core.beginStart] at hperform
        split at hperform
        · assumption
        · cases hperform
  · cases hbegins

theorem Effect.phase_of_readies (h : Effect state occurrence after)
    (hreadies : occurrence.readies = true) : state.core.phase = .starting := by
  unfold Occurrence.readies at hreadies
  split at hreadies
  · subst hreadies
    cases h with
    | did hperform =>
        simp only [State.perform, State.askCore, Core.finishStart] at hperform
        split at hperform
        · assumption
        · cases hperform
  · cases hreadies

theorem Effect.isExited_of_ends (h : Effect state occurrence after)
    (hends : occurrence.ends = true) : state.core.isExited = false := by
  unfold Occurrence.ends at hends
  split at hends
  · subst hends
    cases h with
    | did hperform =>
        simp only [State.perform, State.askCore, Core.markExited] at hperform
        split at hperform
        · cases hperform
        · rename_i hgoesOn
          exact Bool.eq_false_iff.mpr hgoesOn
  · cases hends

end Answers

/-- Whether something was answered with no. -/
def Denied : Deed interface → Prop
  | ⟨.beginStart, answer⟩ | ⟨.finishStart, answer⟩ | ⟨.markExited, answer⟩
  | ⟨.isExited, answer⟩ | ⟨.isRunning, answer⟩ | ⟨.claimTarget, answer⟩
  | ⟨.watchExit, answer⟩ | ⟨.awaitOutput _, answer⟩ | ⟨.acquire _, answer⟩
  | ⟨.disableCommands, answer⟩ | ⟨.commandsEnabled, answer⟩ => answer = false
  | _ => False

/-- Where the answer is no, nothing was changed. -/
theorem Effect.core_eq_of_denied {state after : State} {occurrence : Occurrence} {actor : Actor}
    {deed : Deed interface} (h : Effect state occurrence after)
    (hdeed : occurrence.deedOf? actor = some deed) (hdenied : Denied deed) :
    after.core = state.core := by
  cases h with
  | @did _ _ action answer _ hperform =>
      obtain ⟨-, rfl⟩ := Option.ite_some_none_eq_some.mp hdeed
      rw [perform_core hperform]
      cases action with
      | beginStart | finishStart | markExited | claimTarget =>
          cases hperform
          simp only [Denied, Core.beginStart, Core.finishStart, Core.markExited,
            Core.claimTarget] at hdenied
          simp only [Action.onCore, Core.beginStart, Core.finishStart, Core.markExited,
            Core.claimTarget]
          split at hdenied <;> simp_all
      | acquire limit =>
          obtain ⟨core, -, hresult⟩ := Option.map_eq_some_iff.mp hperform
          cases hresult
          cases hdenied
      | isExited | isRunning | watchExit | awaitOutput | disableCommands | commandsEnabled => rfl
      | _ => exact hdenied.elim
  | @gaveUp _ _ action answer _ hwait hgiveUp =>
      obtain ⟨-, rfl⟩ := Option.ite_some_none_eq_some.mp hdeed
      cases action with
      | awaitResult => exact hdenied.elim
      | _ => exact giveUp_core hgiveUp (by simp)
  | printed => cases hdeed

/-! ## The phase -/

/-- The execution records that were taken into account, first to last. -/
def execs (history : History) : List AsyncRecord :=
  history.filterMap Occurrence.exec?

/-- The phase that a fresh session has come to. -/
def phaseOf (history : History) : Phase :=
  if history.any Occurrence.ends then .exited
  else
    match (execs history).getLast? with
    | some record => if record.isRunning then .running else .stopped
    | none =>
        if history.any Occurrence.readies then .ready
        else if history.any Occurrence.begins then .starting
        else .idle

section Phases

variable {history : History}

theorem phaseOf_eq_exited : phaseOf history = .exited ↔ history.any Occurrence.ends = true := by
  unfold phaseOf
  split
  · simp [*]
  · split
    · split <;> simp [*]
    · split
      · simp [*]
      · split <;> simp [*]

theorem phaseOf_eq_of_exec {record : AsyncRecord} (hends : history.any Occurrence.ends = false)
    (hexecs : (execs history).getLast? = some record) :
    phaseOf history = if record.isRunning then .running else .stopped := by
  simp [phaseOf, hends, hexecs]

theorem phaseOf_eq_of_quiet (hends : history.any Occurrence.ends = false)
    (hexecs : execs history = []) :
    phaseOf history =
      if history.any Occurrence.readies then .ready
      else if history.any Occurrence.begins then .starting
      else .idle := by
  simp [phaseOf, hends, hexecs]

/-- How far the start has come counts until the session ends or an execution record comes. -/
theorem phaseOf_eq_iff {phase : Phase} (hphase : phase ∈ [Phase.idle, .starting, .ready]) :
    phaseOf history = phase ↔ history.any Occurrence.ends = false ∧ execs history = [] ∧
      (if history.any Occurrence.readies then Phase.ready
        else if history.any Occurrence.begins then .starting else .idle) = phase := by
  constructor
  · rintro rfl
    cases hends : history.any Occurrence.ends with
    | true => simp [phaseOf_eq_exited.mpr hends] at hphase
    | false =>
        cases hlast : (execs history).getLast? with
        | some record =>
            rw [phaseOf_eq_of_exec hends hlast] at hphase
            split at hphase <;> simp at hphase
        | none =>
            have hexecs : execs history = [] := List.getLast?_eq_none_iff.mp hlast
            exact ⟨rfl, hexecs, (phaseOf_eq_of_quiet hends hexecs).symm⟩
  · rintro ⟨hends, hexecs, hstage⟩
    rw [phaseOf_eq_of_quiet hends hexecs, hstage]

theorem phaseOf_eq_idle : phaseOf history = .idle ↔ history.any Occurrence.ends = false ∧
    execs history = [] ∧ history.any Occurrence.readies = false ∧
      history.any Occurrence.begins = false := by
  rw [phaseOf_eq_iff (by simp)]
  cases history.any Occurrence.readies <;> cases history.any Occurrence.begins <;> simp

theorem phaseOf_eq_starting : phaseOf history = .starting ↔ history.any Occurrence.ends = false ∧
    execs history = [] ∧ history.any Occurrence.readies = false ∧
      history.any Occurrence.begins = true := by
  rw [phaseOf_eq_iff (by simp)]
  cases history.any Occurrence.readies <;> cases history.any Occurrence.begins <;> simp

theorem phaseOf_eq_ready : phaseOf history = .ready ↔ history.any Occurrence.ends = false ∧
    execs history = [] ∧ history.any Occurrence.readies = true := by
  rw [phaseOf_eq_iff (by simp)]
  cases history.any Occurrence.readies <;> cases history.any Occurrence.begins <;> simp

/-- One use of the core makes of the phase what the phase says, if the start begins only once. -/
theorem phaseOf_concat {occurrence : Occurrence}
    (hbegins : occurrence.begins = true → phaseOf history = .idle)
    (hreadies : occurrence.readies = true → phaseOf history = .starting) :
    phaseOf (history ++ [occurrence]) = occurrence.phaseAfter (phaseOf history) := by
  -- what is none of the four changes nothing that the phase is told from
  have haside (hbegin : occurrence.begins = false) (hready : occurrence.readies = false)
      (hend : occurrence.ends = false) (hexec : occurrence.exec? = none) :
      phaseOf (history ++ [occurrence]) = phaseOf history := by
    simp [phaseOf, execs, hbegin, hready, hend, hexec]
  cases occurrence with
  | gaveUp | happened => exact haside rfl rfl rfl rfl
  | did actor deed =>
      obtain ⟨action, answer⟩ := deed
      cases action with
      | beginStart =>
          cases answer with
          | false => exact haside rfl rfl rfl rfl
          | true =>
              obtain ⟨hends, hexecs, hready, -⟩ := phaseOf_eq_idle.mp (hbegins rfl)
              refine phaseOf_eq_starting.mpr ⟨?_, ?_, ?_, ?_⟩
              · simpa [Occurrence.ends] using hends
              · simpa [execs, Occurrence.exec?] using hexecs
              · simpa [Occurrence.readies] using hready
              · simp [Occurrence.begins]
      | finishStart =>
          cases answer with
          | false => exact haside rfl rfl rfl rfl
          | true =>
              obtain ⟨hends, hexecs, -⟩ := phaseOf_eq_starting.mp (hreadies rfl)
              refine phaseOf_eq_ready.mpr ⟨?_, ?_, ?_⟩
              · simpa [Occurrence.ends] using hends
              · simpa [execs, Occurrence.exec?] using hexecs
              · simp [Occurrence.readies]
      | markExited =>
          cases answer with
          | false => exact haside rfl rfl rfl rfl
          | true => exact phaseOf_eq_exited.mpr (by simp [Occurrence.ends])
      | applyExec record =>
          have hends : (history ++ [.did actor ⟨.applyExec record, answer⟩] : History).any
              Occurrence.ends = history.any Occurrence.ends := by
            simp [Occurrence.ends]
          by_cases hexited : phaseOf history = .exited
          · rw [Occurrence.phaseAfter, if_pos hexited, phaseOf_eq_exited, hends]
            exact phaseOf_eq_exited.mp hexited
          · rw [Occurrence.phaseAfter, if_neg hexited]
            refine phaseOf_eq_of_exec ?_ (by simp [execs, Occurrence.exec?])
            rw [hends, ← Bool.not_eq_true, ← phaseOf_eq_exited]
            exact hexited
      | _ => exact haside rfl rfl rfl rfl

end Phases

/-! ## Lives -/

/-- How far a session has come in its life. -/
def Phase.rank : Phase → Nat
  | idle => 0
  | starting => 1
  | ready => 2
  | running | stopped => 3
  | exited => 4

theorem Effect.rank_le {state after : State} {occurrence : Occurrence}
    (h : Effect state occurrence after) : state.core.phase.rank ≤ after.core.phase.rank := by
  rw [h.phase_eq]
  generalize hphase : state.core.phase = phase
  cases occurrence with
  | gaveUp | happened => exact Nat.le_refl _
  | did actor deed =>
      obtain ⟨action, answer⟩ := deed
      cases action with
      | beginStart =>
          cases answer with
          | false => exact Nat.le_refl _
          | true =>
              obtain rfl := hphase.symm.trans (h.phase_of_begins rfl)
              show Phase.idle.rank ≤ Phase.starting.rank
              decide
      | finishStart =>
          cases answer with
          | false => exact Nat.le_refl _
          | true =>
              obtain rfl := hphase.symm.trans (h.phase_of_readies rfl)
              show Phase.starting.rank ≤ Phase.ready.rank
              decide
      | markExited =>
          cases answer with
          | false => exact Nat.le_refl _
          | true =>
              show phase.rank ≤ Phase.exited.rank
              cases phase <;> decide
      | applyExec record =>
          simp only [Occurrence.phaseAfter]
          cases phase <;> cases record.isRunning <;> decide
      | _ => exact Nat.le_refl _

theorem Passes.rank_le {start last : Core} {history : History} (h : Passes start history last) :
    start.phase.rank ≤ last.phase.rank := by
  induction h with
  | nothing => exact Nat.le_refl _
  | more _ heffect ih => exact Nat.le_trans ih heffect.rank_le

/-- Until the target is heard of, a session comes only farther when its phase changes. -/
theorem Phase.rank_lt_of_left {phase other : Phase}
    (hphase : phase ∈ [Phase.idle, .starting, .ready]) (hne : other ≠ phase)
    (hle : phase.rank ≤ other.rank) : phase.rank < other.rank := by
  cases phase <;> cases other <;> simp_all [Phase.rank]

/-- A core to which this has been done since it was fresh. -/
structure Core.Lives (core : Core) (history : History) : Prop where
  agrees : core.Agrees
  phase : core.phase = phaseOf history
  begins_le : history.countP Occurrence.begins ≤ 1
  ends_le : history.countP Occurrence.ends ≤ 1

theorem Core.lives_new : Core.Lives {} [] :=
  ⟨rfl, rfl, by simp, by simp⟩

/-- What has been counted at most once is counted at most once more only if it did not count. -/
theorem countP_concat_le_one {history : History} {occurrence : Occurrence}
    {counts : Occurrence → Bool} (h : history.countP counts ≤ 1)
    (hfirst : counts occurrence = true → history.any counts = false) :
    (history ++ [occurrence]).countP counts ≤ 1 := by
  rw [List.countP_append, List.countP_singleton]
  split
  · rename_i hcounts
    have hnone : history.countP counts = 0 :=
      List.countP_eq_zero.mpr fun other hmem hother =>
        absurd (List.any_eq_true.mpr ⟨other, hmem, hother⟩) (by simp [hfirst hcounts])
    omega
  · omega

theorem Core.Lives.effect {state after : State} {occurrence : Occurrence} {history : History}
    (h : state.core.Lives history) (heffect : Effect state occurrence after) :
    after.core.Lives (history ++ [occurrence]) := by
  refine ⟨heffect.agrees h.agrees, ?_, ?_, ?_⟩
  · rw [heffect.phase_eq, h.phase]
    refine (phaseOf_concat (fun hbegins => ?_) fun hreadies => ?_).symm
    · rw [← h.phase, heffect.phase_of_begins hbegins]
    · rw [← h.phase, heffect.phase_of_readies hreadies]
  · refine countP_concat_le_one h.begins_le fun hbegins => ?_
    have hidle : phaseOf history = .idle := h.phase ▸ heffect.phase_of_begins hbegins
    exact (phaseOf_eq_idle.mp hidle).2.2.2
  · refine countP_concat_le_one h.ends_le fun hends => ?_
    rw [← Bool.not_eq_true, ← phaseOf_eq_exited, ← h.phase]
    intro hexited
    have hgoesOn := heffect.isExited_of_ends hends
    rw [h.agrees, hexited] at hgoesOn
    cases hgoesOn

theorem Passes.lives {core : Core} {history : History} (h : Passes {} history core) :
    core.Lives history := by
  induction h with
  | nothing => exact Core.lives_new
  | more _ heffect ih => exact ih.effect heffect

section Uses

variable {core : Core} {history : History}

/-- While the session goes on, the target has been heard of exactly if an execution record came. -/
theorem Core.Lives.phase_of_execs (h : core.Lives history) (hgoesOn : core.phase ≠ .exited) :
    (core.phase = .running ∨ core.phase = .stopped ↔ execs history ≠ []) ∧
    ∀ record, (execs history).getLast? = some record →
      core.phase = if record.isRunning then .running else .stopped := by
  have hends : history.any Occurrence.ends = false := by
    rw [← Bool.not_eq_true, ← phaseOf_eq_exited, ← h.phase]
    exact hgoesOn
  have hlast (record : AsyncRecord) (hrecord : (execs history).getLast? = some record) :
      core.phase = if record.isRunning then .running else .stopped := by
    rw [h.phase, phaseOf_eq_of_exec hends hrecord]
  refine ⟨⟨?_, fun hexecs => ?_⟩, hlast⟩
  · intro hphase hnone
    rw [h.phase, phaseOf_eq_of_quiet hends hnone] at hphase
    split at hphase
    · simp at hphase
    · split at hphase <;> simp at hphase
  · rw [hlast _ (List.getLast?_eq_some_getLast hexecs)]
    split <;> simp

/-- A session gets ready only by the end of its start, and only before any execution record. -/
theorem Core.Lives.readies {state after : State} {occurrence : Occurrence}
    (h : state.core.Lives history) (heffect : Effect state occurrence after)
    (hbefore : state.core.phase ≠ .ready) (hafter : after.core.phase = .ready) :
    occurrence.readies = true ∧ state.core.phase = .starting ∧ execs history = [] := by
  have hreadies : occurrence.readies = true := by
    rw [heffect.phase_eq] at hafter
    unfold Occurrence.phaseAfter at hafter
    split at hafter
    · split at hafter
      · cases hafter
      · exact absurd hafter hbefore
    · rename_i kept
      cases kept with
      | true => rfl
      | false => exact absurd hafter hbefore
    · split at hafter
      · cases hafter
      · exact absurd hafter hbefore
    · split at hafter
      · cases hafter
      · split at hafter <;> cases hafter
    · exact absurd hafter hbefore
  have hstarting : state.core.phase = .starting := heffect.phase_of_readies hreadies
  exact ⟨hreadies, hstarting, (phaseOf_eq_starting.mp (h.phase ▸ hstarting)).2.1⟩

end Uses

/-- A session lives only once.  Of three moments in any sequence of uses: the phase is what the
sequence has made of it, and is the end exactly where the session is said to have ended; a start
begins and the session ends once at most; what the session was before the target was heard of does
not come back after it was left, and the end remains.  Until then the session runs or is stopped
exactly if there was an execution record, as the last one said.  A start begins only when the
session is idle; the session gets ready only by the end of its start, before any execution record;
and who is told no has changed nothing. -/
theorem lives_once {first second third : History} {one two three : Core}
    (hone : Passes {} first one) (htwo : Passes one second two)
    (hthree : Passes two third three) :
    let history := first ++ second ++ third
    three.phase = phaseOf history ∧
    (three.isExited = true ↔ three.phase = .exited) ∧
    history.countP Occurrence.begins ≤ 1 ∧ history.countP Occurrence.ends ≤ 1 ∧
    (∀ phase ∈ [Phase.idle, .starting, .ready],
      one.phase = phase → two.phase ≠ phase → three.phase ≠ phase) ∧
    (two.phase = .exited → three.phase = .exited) ∧
    (three.phase ≠ .exited →
      (three.phase = .running ∨ three.phase = .stopped ↔ execs history ≠ []) ∧
      ∀ record, (execs history).getLast? = some record →
        three.phase = if record.isRunning then .running else .stopped) ∧
    ∀ (state after : State) (occurrence : Occurrence), state.core = three →
      Effect state occurrence after →
      (occurrence.begins = true → three.phase = .idle) ∧
      (three.phase ≠ .ready → after.core.phase = .ready → occurrence.readies = true ∧
        three.phase = .starting ∧ execs history = []) ∧
      ∀ actor deed, occurrence.deedOf? actor = some deed → Denied deed → after.core = three := by
  intro history
  have hlives : three.Lives history := ((hone.trans htwo).trans hthree).lives
  refine ⟨hlives.phase, ?_, hlives.begins_le, hlives.ends_le, ?_, ?_, hlives.phase_of_execs, ?_⟩
  · rw [hlives.agrees]
    exact beq_iff_eq
  · rintro phase hphase rfl hleft heq
    have hfirst := Phase.rank_lt_of_left hphase hleft htwo.rank_le
    have hsecond := hthree.rank_le
    rw [heq] at hsecond
    omega
  · intro hexited
    have hle := hthree.rank_le
    rw [hexited] at hle
    cases hphase : three.phase with
    | exited => rfl
    | _ =>
        rw [hphase] at hle
        exact absurd hle (by decide)
  · rintro state after occurrence rfl heffect
    exact ⟨heffect.phase_of_begins, hlives.readies heffect,
      fun actor deed => heffect.core_eq_of_denied⟩

/-- A start begins and ends, then the target stops. -/
theorem lives_once_of_stop :
    let record : AsyncRecord := ⟨"stopped", .tuple []⟩
    let first : History := [.did (.caller 0) ⟨.beginStart, true⟩]
    let second : History := [.did (.caller 0) ⟨.finishStart, true⟩]
    let third : History := [.did (.reader .output) ⟨.applyExec record, ()⟩]
    let one := (Core.beginStart {}).1
    let two := one.finishStart.1
    let three := two.applyExec record
    (Passes {} first one ∧ Passes one second two ∧ Passes two third three) ∧
      one.phase = .starting ∧ two.phase = .ready ∧ three.phase = .stopped ∧
        three.phase = phaseOf (first ++ second ++ third) := by
  intro record first second third one two three
  have hone : Passes {} first one := .one rfl
  have htwo : Passes one second two := .one rfl
  have hthree : Passes two third three := .one rfl
  exact ⟨⟨hone, htwo, hthree⟩, rfl, rfl, rfl, (lives_once hone htwo hthree).1⟩

end DebugBridge.Session
