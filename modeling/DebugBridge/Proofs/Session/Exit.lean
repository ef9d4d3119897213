import DebugBridge.Proofs.Session.Endings
import DebugBridge.Proofs.Session.Running

/-!
# The end of a session

A session that has ended stays so: neither its phase nor what it answers to those who ask for its
end changes any more.  Whether its target executes is another matter.  The end says that it does
not, but records that are still read, and commands that have seen the session go on just before,
say again that it does.

## Strategy

* `Core.HasEnded` is kept by everything that happens (`Effect.hasEnded`).
* `lookout` is the protocol of a caller that looks for the end before it claims the target.  Every
  request keeps to it (`Request.wary`), so a claim after the end goes back to a look before it.

## Main statements

* `runs_after_exit`: a target may be taken to execute after the session has ended.
* `exited_for_good`: what stays as it is after the end, and what may still say that the target
  executes.
-/

namespace DebugBridge.Session

/-! ## A session that has ended -/

/-- The session has ended, in both of the places where that is noted. -/
structure Core.HasEnded (core : Core) : Prop where
  isExited : core.isExited = true
  phase : core.phase = .exited

theorem Core.HasEnded.onCore {core : Core} (h : core.HasEnded) (action : Action) :
    (action.onCore core).HasEnded := by
  have hexited : core.slot.exited = true := h.isExited
  cases action with
  | beginStart | finishStart =>
      simpa [Action.onCore, Core.beginStart, Core.finishStart, h.phase] using h
  | markExited => simpa [Action.onCore, Core.markExited, hexited] using h
  | applyExec record => exact ⟨hexited, if_pos h.phase⟩
  | deliver | claimTarget =>
      simp only [Action.onCore, Core.deliver, Core.claimTarget]
      split <;> exact ⟨hexited, h.phase⟩
  | awaitResult ticket limit claimed =>
      simp only [Action.onCore, Core.collect?]
      split
      · exact ⟨hexited, h.phase⟩
      · split <;> exact ⟨hexited, h.phase⟩
  | _ => exact ⟨hexited, h.phase⟩

theorem Core.HasEnded.abandon {core : Core} (h : core.HasEnded) (claimed : Bool) :
    (core.abandon claimed).HasEnded := by
  cases claimed <;> exact ⟨h.isExited, h.phase⟩

/-- Whatever happens, a session that has ended stays so. -/
theorem Effect.hasEnded {state after : State} {occurrence : Occurrence}
    (h : Effect state occurrence after) (hended : state.core.HasEnded) : after.core.HasEnded := by
  cases h with
  | did hperform =>
      rw [perform_core hperform]
      exact hended.onCore _
  | @gaveUp actor reaction action answer next hwait hgiveUp =>
      cases action with
      | awaitResult ticket limit claimed =>
          cases hgiveUp
          exact hended.abandon claimed
      | _ =>
          rw [giveUp_core hgiveUp (by simp)]
          exact hended
  | printed hcore =>
      rw [hcore]
      exact hended

/-- Who ends a session that was still going on leaves it ended. -/
theorem hasEnded_of_markExited {reaction : Option Fault} {state after : State}
    (hperform : state.perform reaction .markExited = some (after, true)) :
    after.core.HasEnded := by
  simp only [State.perform, State.askCore, Core.markExited] at hperform
  split at hperform <;> cases hperform
  exact ⟨rfl, rfl⟩

theorem Effect.answer_isExited {state after : State} {occurrence : Occurrence} {actor : Actor}
    {exited : Bool} (h : Effect state occurrence after)
    (hdeed : occurrence.deedOf? actor = some ⟨.isExited, exited⟩) :
    exited = state.core.isExited := by
  cases h with
  | did hperform =>
      obtain ⟨-, hdeed⟩ := Option.ite_some_none_eq_some.mp hdeed
      cases hdeed
      cases hperform
      rfl
  | gaveUp hwait hgiveUp =>
      obtain ⟨-, hdeed⟩ := Option.ite_some_none_eq_some.mp hdeed
      cases hdeed
      cases hgiveUp
  | printed => cases hdeed

section Runs

variable {host : Host} {ρ α : Type} {program : ρ → Activity α} {c : Chronicle host ρ α}

theorem Possible.hasEnded (h : Possible program c) {ender : Actor}
    (hend : .did ender ⟨.markExited, true⟩ ∈ c.history) : c.session.state.core.HasEnded := by
  refine h.of_effect (fun core history => .did ender ⟨.markExited, true⟩ ∈ history →
    core.HasEnded) (by simp) ?_ hend
  intro c next occurrence _ _ _ heffect hbefore hend
  rcases List.mem_append.mp hend with hend | hend
  · exact heffect.hasEnded (hbefore hend)
  · obtain rfl := List.mem_singleton.mp hend
    cases heffect with
    | did hperform => exact hasEnded_of_markExited hperform

/-- After the end, the session answers that it has ended. -/
theorem Possible.answer_isExited (h : Possible program c) {past future : History}
    {ender actor : Actor} {occurrence : Occurrence} {exited : Bool}
    (hhistory : c.history = past ++ occurrence :: future)
    (hdeed : occurrence.deedOf? actor = some ⟨.isExited, exited⟩)
    (hend : .did ender ⟨.markExited, true⟩ ∈ past) : exited = true := by
  obtain ⟨earlier, later, hmoment, rfl, hlater⟩ := h.exists_moment hhistory
  have hended := hmoment.possible.hasEnded hend
  rw [(hmoment.effect hlater).answer_isExited hdeed, hended.isExited]

end Runs

/-! ## A look before a claim -/

/-- What a caller may do that has or has not just seen that the session goes on. -/
def Lookout.Permits (seen : Bool) : Action → Prop
  | .claimTarget => seen = true
  | .setRunning running => running = false
  | _ => True

/-- Whether the last thing a caller did was to see that the session goes on. -/
def Lookout.after : (action : Action) → action.Answer → Bool
  | .isExited, exited => !exited
  | _, _ => false

/-- A caller looks for the end of the session right before it claims the target, and otherwise does
not say that the target executes. -/
abbrev lookout : Protocol interface where
  Stage := Bool
  Permits := Lookout.Permits
  Admits _ _ := True
  after _ := Lookout.after

/-- The program looks for the end of the session before it claims the target, wherever it begins. -/
def Wary {β : Type} (program : Activity β) : Prop :=
  ∀ seen : Bool, program.Follows lookout seen fun _ _ => True

section Wary

variable {β γ : Type}

theorem wary_pure (value : β) : Wary (pure value : Activity β) :=
  fun _ => trivial

theorem wary_perform {action : Action} {next : action.Answer → Activity β}
    (haction : ∀ seen, Lookout.Permits seen action) (hnext : ∀ answer, Wary (next answer)) :
    Wary (perform action >>= next) :=
  fun seen => ⟨haction seen, fun answer _ => hnext answer _⟩

theorem Wary.bind {program : Activity β} {next : β → Activity γ} (h : Wary program)
    (hnext : ∀ value, Wary (next value)) : Wary (program >>= next) :=
  fun seen => (h seen).bind fun value stage _ => hnext value stage

/-- An exchange claims nothing. -/
theorem exchange_wary (line : String) (limit : Nat) (claimed : Bool) :
    Wary (exchange line limit claimed) := by
  have hexchanges : (exchange line limit claimed).OnlyDoes (Action.Exchanges (line = ·)) :=
    exchange_exchanges rfl limit claimed
  intro seen
  refine hexchanges.follows_of_forall ?_ _
  intro seen action haction
  cases action <;> trivial

theorem admitted_wary (config : Config) (line : String) (limit : Nat) :
    Wary (admitted config line limit) := by
  refine fun seen => ⟨trivial, fun exited _ => ?_⟩
  cases exited with
  | true => trivial
  | false =>
      show (if config.asyncMode then _ else _ : Activity Outcome).Follows lookout true _
      split
      · exact exchange_wary line limit false true
      -- the claim comes right after the look
      · refine ⟨rfl, fun granted _ => ?_⟩
        cases granted with
        | true => exact exchange_wary line limit true false
        | false => exact ⟨trivial, fun _ _ => trivial⟩

theorem runCommand_wary (config : Config) (line : String) (limit : Nat) :
    Wary (runCommand config line limit) :=
  wary_perform (fun _ => trivial) fun _ => (admitted_wary config line limit).bind fun _ =>
    wary_perform (fun _ => trivial) fun _ => wary_pure _

theorem tryRunCommand_wary (config : Config) (line : String) (limit : Nat) :
    Wary (tryRunCommand config line limit) := by
  refine wary_perform (fun _ => trivial) fun granted => ?_
  cases granted with
  | true =>
      exact (admitted_wary config line limit).bind fun _ =>
        wary_perform (fun _ => trivial) fun _ => wary_pure _
  | false => exact wary_pure _

theorem Operation.wary (plan : Plan) (operation : Operation) : Wary (operation.program plan) := by
  have hassembled : Assembled plan.config (fun _ => True) _ (operation.program plan) :=
    operation.assembled (fun _ _ => trivial) plan
  refine fun seen => (hassembled.follows lookout (fun _ => True) ?_ ?_ ?_ trivial).mono
    fun _ _ _ => trivial
  · intro seen action _ haction
    cases action <;> first | exact ⟨trivial, fun _ => trivial⟩ | exact absurd haction id
  · exact fun seen line limit _ => (runCommand_wary plan.config line limit seen).mono (by simp)
  · exact fun seen line limit _ => (tryRunCommand_wary plan.config line limit seen).mono (by simp)

theorem OnlyReports.wary {program : Activity β} (h : OnlyReports program) : Wary program := by
  intro seen
  refine Program.OnlyDoes.follows_of_forall h ?_ _
  intro seen action haction
  cases action <;> trivial

theorem Request.wary (plan : Plan) (request : Request) : Wary (request.program plan) := by
  cases request with
  | operation operation => exact operation.wary plan
  | result outcome => exact (onlyReports_handleResult outcome).wary.bind fun _ => wary_pure _
  | line text => exact (onlyReports_handleLine text).wary.bind fun _ => wary_pure _
  | ended => exact onlyReports_finish.wary.bind fun _ => wary_pure _

end Wary

/-! ## What is said after the end -/

/-- What says that the target executes. -/
inductive Occurrence.Asserts : Occurrence → Prop
  /-- an execution record is taken into account -/
  | exec {actor : Actor} {record : AsyncRecord} (hrecord : record.isRunning = true) :
      Asserts (.did actor ⟨.applyExec record, ()⟩)
  /-- a result record is taken into account -/
  | result {actor : Actor} {outcome : Outcome} (houtcome : outcome.status = .running) :
      Asserts (.did actor ⟨.noteResult outcome, ()⟩)
  /-- a command claims the target -/
  | claim {actor : Actor} : Asserts (.did actor ⟨.claimTarget, true⟩)

/-- What may still say that the target executes after the session has ended, when `before` is what
had happened until then and `since` what has happened from then on. -/
inductive Belated (before since : History) : Occurrence → Prop
  /-- an execution record is taken into account -/
  | exec {actor : Actor} {record : AsyncRecord} (hrecord : record.isRunning = true) :
      Belated before since (.did actor ⟨.applyExec record, ()⟩)
  /-- a result record is taken into account -/
  | result {actor : Actor} {outcome : Outcome} (houtcome : outcome.status = .running) :
      Belated before since (.did actor ⟨.noteResult outcome, ()⟩)
  /-- a command claims the target, and to see that the session went on was what it did last before
  the end -/
  | command {actor : Actor}
      (hseen : (deedsOf actor before).getLast? = some ⟨.isExited, false⟩)
      (hsince : deedsOf actor since = []) :
      Belated before since (.did actor ⟨.claimTarget, true⟩)

/-- An actor that may claim the target has just seen that the session goes on. -/
theorem getLast?_of_stageAfter {deeds : List (Deed interface)}
    (h : lookout.stageAfter false deeds = true) : deeds.getLast? = some ⟨.isExited, false⟩ := by
  rcases List.eq_nil_or_concat deeds with rfl | ⟨earlier, ⟨action, answer⟩, rfl⟩
  · cases h
  · rw [List.concat_eq_append, Protocol.stageAfter_concat] at h
    cases action with
    | isExited =>
        cases answer with
        | false => simp
        | true => cases h
    | _ => cases h

section Runs

variable {host : Host} {ρ α : Type} {program : ρ → Activity α} {c : Chronicle host ρ α}

theorem Possible.isRunning_since (h : Possible program c) {before since : History} {ender : Actor}
    (hhistory : c.history = before ++ .did ender ⟨.markExited, true⟩ :: since) :
    c.session.state.core.isRunning =
      ((since.filterMap Occurrence.verdict?).getLast?).getD false := by
  have hverdict : Occurrence.verdict? (.did ender ⟨.markExited, true⟩) = some false := rfl
  rw [h.isRunning_eq, hhistory, List.filterMap_append, List.filterMap_cons_some hverdict,
    List.getLast?_append, List.getLast?_cons]
  cases (since.filterMap Occurrence.verdict?).getLast? <;> rfl

/-- A look after the end does not see the session go on. -/
theorem Possible.not_mem_deedsOf (h : Possible program c) {before since future : History}
    {ender : Actor}
    (hhistory : c.history = before ++ .did ender ⟨.markExited, true⟩ :: since ++ future)
    (actor : Actor) : ⟨.isExited, false⟩ ∉ deedsOf actor since := by
  intro hmem
  obtain ⟨occurrence, hoccurrence, hdeed⟩ := List.mem_filterMap.mp hmem
  obtain ⟨earlier, later, rfl⟩ := List.append_of_mem hoccurrence
  have hpast : c.history = (before ++ .did ender ⟨.markExited, true⟩ :: earlier) ++
      occurrence :: (later ++ future) := by simp [hhistory]
  have hend : .did ender ⟨.markExited, true⟩ ∈
      before ++ .did ender ⟨.markExited, true⟩ :: earlier := by simp
  exact absurd (h.answer_isExited hpast hdeed hend) (by decide)

/-- What an actor does, it may do after what it has seen. -/
theorem Possible.lookout_permits (h : Possible program c) (hprogram : ∀ r, Wary (program r))
    {past future : History} {actor : Actor} {deed : Deed interface}
    (hhistory : c.history = past ++ .did actor deed :: future) :
    Lookout.Permits (lookout.stageAfter false (deedsOf actor past)) deed.action := by
  have hreports (seen : Bool) (action : Action) (haction : action.Reports) :
      Lookout.Permits seen action := by
    cases action <;> first | exact trivial | exact haction | exact absurd haction id
  obtain ⟨earlier, later, hmoment, rfl, hlater⟩ := h.exists_moment hhistory
  exact hmoment.possible.permits hmoment.change (fun r => ⟨_, hprogram r false⟩) hreports hlater
    (deedOf?_did actor deed) fun _ _ => trivial

/-- A claim after the end goes back to a look before it. -/
theorem Possible.belated_of_claim (h : Possible program c) (hprogram : ∀ r, Wary (program r))
    {before since later : History} {ender actor : Actor}
    (hhistory : c.history = before ++ .did ender ⟨.markExited, true⟩ :: since ++
      .did actor ⟨.claimTarget, true⟩ :: later) :
    Belated before since (.did actor ⟨.claimTarget, true⟩) := by
  have hlast := getLast?_of_stageAfter (h.lookout_permits hprogram hhistory)
  rw [deedsOf_append, ← List.singleton_append, deedsOf_append] at hlast
  by_cases hsince : deedsOf actor since = []
  · rw [hsince, List.append_nil] at hlast
    by_cases hender : ender = actor
    · simp [hender] at hlast
    · rw [deedsOf_did_ne hender, List.append_nil] at hlast
      exact .command hlast hsince
  -- the look would have been after the end
  · rw [← List.append_assoc, List.getLast?_append, List.getLast?_eq_some_getLast hsince,
      Option.some_or, Option.some.injEq] at hlast
    exact absurd (hlast ▸ List.getLast_mem hsince) (h.not_mem_deedsOf hhistory actor)

/-- Who says that the target executes: a record that is taken into account, or a command that claims
the target. -/
theorem Possible.asserted (h : Possible program c) (hprogram : ∀ r, Wary (program r))
    {past future : History} {occurrence : Occurrence}
    (hhistory : c.history = past ++ occurrence :: future)
    (hverdict : occurrence.verdict? = some true) : occurrence.Asserts := by
  cases occurrence with
  | happened => cases hverdict
  | gaveUp actor deed =>
      obtain ⟨action, answer⟩ := deed
      cases action with
      | awaitResult ticket limit claimed => cases claimed <;> cases hverdict
      | _ => cases hverdict
  | did actor deed =>
      have hpermits := h.lookout_permits hprogram hhistory
      obtain ⟨action, answer⟩ := deed
      cases action with
      | applyExec record => exact .exec (Option.some.inj hverdict)
      | noteResult outcome => exact .result (by simpa using Option.some.inj hverdict)
      | claimTarget =>
          cases answer with
          | true => exact .claim
          | false => cases hverdict
      -- a caller that speaks for itself says only that the target does not execute
      | setRunning running =>
          obtain rfl : running = true := Option.some.inj hverdict
          cases hpermits
      | markExited => cases answer <;> cases hverdict
      | _ => cases hverdict

/-- Only what is belated says after the end that the target executes. -/
theorem Possible.belated (h : Possible program c) (hprogram : ∀ r, Wary (program r))
    {before since later : History} {ender : Actor} {occurrence : Occurrence}
    (hhistory : c.history = before ++ .did ender ⟨.markExited, true⟩ :: since ++ occurrence :: later)
    (hverdict : occurrence.verdict? = some true) : Belated before since occurrence := by
  cases h.asserted hprogram hhistory hverdict with
  | exec hrecord => exact .exec hrecord
  | result houtcome => exact .result houtcome
  | claim => exact h.belated_of_claim hprogram hhistory

end Runs

/-! ## What an observer sees -/

/-- Nobody is in the middle of something. -/
def Chronicle.isQuiet {host : Host} {ρ α : Type} (c : Chronicle host ρ α) : Bool :=
  c.system.callers.all (·.value?.isSome) && c.session.outputTask.value?.isSome &&
    c.session.errorTask.value?.isSome && c.session.watcherTask.value?.isSome

/-- When nobody is in the middle of something, every request has its answer. -/
theorem Possible.isSome_value? {host : Host} {ρ α : Type} {program : ρ → Activity α}
    {c : Chronicle host ρ α} (h : Possible program c) (hquiet : c.isQuiet = true) {n : Nat} {r : ρ}
    (hrequest : c.requests[n]? = some r) : (c.system.value? n).isSome := by
  simp only [Chronicle.isQuiet, Bool.and_eq_true] at hquiet
  obtain ⟨⟨⟨hcallers, -⟩, -⟩, -⟩ := hquiet
  have hlt : n < c.system.callers.length := by
    rw [← h.accounted.length_eq]
    exact (List.getElem?_eq_some_iff.mp hrequest).1
  have hvalue := List.all_eq_true.mp hcallers _ (List.getElem_mem hlt)
  rw [System.value?, List.getElem?_eq_getElem hlt]
  exact hvalue

/-- A record that comes after the end makes the target look as if it executed, for good. -/
theorem runs_after_exit :
    ¬ ∀ (host : Host) (plan : Plan) (c : Chronicle host Request Reply),
      Possible (Request.program plan) c → ∀ before ender since,
        c.history = before ++ .did ender ⟨.markExited, true⟩ :: since → c.isQuiet = true →
        c.session.state.core.phase = .exited ∧ c.session.state.core.isExited = true ∧
          c.session.state.core.isRunning = false := by
  intro hclaim
  obtain ⟨c, hturns, hhistory, hquiet, hrunning⟩ :
      ∃ c : Chronicle Host.blind Request Reply,
        Chronicle.turns? (Request.program Plan.plain) {} (List.flatten
          [[.request .ended], Turn.acts 0 2, [.request (.line "*running")], Turn.acts 1 4]) =
            some c ∧
      c.history = [] ++ .did (.caller 0) ⟨.markExited, true⟩ :: c.history.drop 1 ∧
      c.isQuiet = true ∧ c.session.state.core.isRunning = true := ⟨_, rfl, rfl, rfl, rfl⟩
  have h := Possible.fresh.turns _ hturns
  obtain ⟨-, -, hrunning'⟩ := hclaim _ _ c h _ _ _ hhistory hquiet
  rw [hrunning] at hrunning'
  cases hrunning'

/-- After its end, a session has ended at every moment.  Its target executes when the last verdict
since then says so, and that can only be a record that is taken into account late, or the claim of a
command that had seen the session go on. -/
theorem exited_for_good (host : Host) (plan : Plan) (c : Chronicle host Request Reply)
    (h : Possible (Request.program plan) c) (before since : History) (ender : Actor)
    (hhistory : c.history = before ++ .did ender ⟨.markExited, true⟩ :: since) :
    c.session.state.core.phase = .exited ∧ c.session.state.core.isExited = true ∧
    c.session.state.core.isRunning =
      ((since.filterMap Occurrence.verdict?).getLast?).getD false ∧
    ∀ earlier occurrence later, since = earlier ++ occurrence :: later →
      occurrence.verdict? = some true → Belated before earlier occurrence := by
  have hend : .did ender ⟨.markExited, true⟩ ∈ c.history := by simp [hhistory]
  have hended := h.hasEnded hend
  refine ⟨hended.phase, hended.isExited, h.isRunning_since hhistory, ?_⟩
  rintro earlier occurrence later rfl hverdict
  exact h.belated (fun r => r.wary plan) (by simpa using hhistory) hverdict

/-- A command that has just seen the session go on claims the target after the end. -/
theorem exited_for_good_of_claim : ∃ c : Chronicle Host.blind Request Reply,
    Possible (Request.program Plan.plain) c ∧ c.isQuiet = true ∧
    c.session.state.core.phase = .exited ∧ c.session.state.core.isRunning = true ∧
    ∃ before since ender,
      c.history = before ++ .did ender ⟨.markExited, true⟩ :: since ∧
      ((since.filterMap Occurrence.verdict?).getLast?).getD false = true ∧
      ∃ claimant, Belated before [.did ender ⟨.publish .exited, ()⟩]
        (.did claimant ⟨.claimTarget, true⟩) := by
  obtain ⟨c, hturns, hhistory, hquiet, hrunning⟩ :
      ∃ c : Chronicle Host.blind Request Reply,
        Chronicle.turns? (Request.program Plan.plain) {} (List.flatten
          [[.request (.operation (.command "-exec-run" 5))], Turn.acts 0 2, [.request .ended],
            Turn.acts 1 2, Turn.acts 0 6]) = some c ∧
      c.history = c.history.take 2 ++ .did (.caller 1) ⟨.markExited, true⟩ ::
        ([.did (.caller 1) ⟨.publish .exited, ()⟩] ++
          .did (.caller 0) ⟨.claimTarget, true⟩ :: c.history.drop 5) ∧
      c.isQuiet = true ∧ c.session.state.core.isRunning = true := ⟨_, rfl, rfl, rfl, rfl⟩
  have h := Possible.fresh.turns _ hturns
  obtain ⟨hphase, -, hlast, hbelated⟩ := exited_for_good _ _ c h _ _ _ hhistory
  exact ⟨c, h, hquiet, hphase, hrunning, _, _, _, hhistory, hlast ▸ hrunning, _,
    hbelated _ _ _ rfl rfl⟩

end DebugBridge.Session
