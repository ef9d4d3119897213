import DebugBridge.Proofs.Bridge.Run
import DebugBridge.Proofs.Session.Assembly

/-!
# How errands are put together

Whatever a caller of a bridge comes for, its program is made of two kinds of pieces: whole programs
of sessions, which are put together from commands themselves, and single actions.  Which breakpoints
it may remember or forget by these is up to what the host asks for.

## Main statements

* `Errand.assembled`: the errands are put together in this way.
* `Assembled.follows`: a program that is keeps to each protocol to which its pieces keep.
-/

namespace DebugBridge.Bridge

/-- What the host asks for by an errand. -/
def Errand.ask? : Errand → Option Ask
  | line text =>
      if Text.isAllBlank text then none
      else (Request.read? text).bind fun request =>
        (Ask.read request.method request.params).toOption
  | shutDown | attach _ | operation _ _ _ => none

/-- What identifies the answer to an errand. -/
def Errand.id? : Errand → Option RequestId
  | line text => (Request.read? text).bind Request.id
  | shutDown | attach _ | operation _ _ _ => none

/-- Whether an action may belong to what is asked for: a breakpoint is remembered or forgotten only
if this is asked for, and nothing is done on a session that has to do with its commands. -/
def Action.Serves (asked : Option Ask) : Action → Prop
  | remember breakpoint => asked = some (.insert breakpoint)
  | forget breakpoint => asked = some (.remove breakpoint)
  | on _ action => action.IsPlain
  | hasLiveSession | create _ | place _ | replace _ | take | current => True

/-- The program is put together from actions that may belong to what is asked for and from programs
of sessions. -/
inductive Assembled {β : Type} (asked : Option Ask) : Activity β → Prop
  | done (value : β) : Assembled asked (.done value)
  | act {action : Action} {next : action.Answer → Activity β} (haction : action.Serves asked)
      (hnext : ∀ answer, Assembled asked (next answer)) : Assembled asked (.act action next)
  | session {γ : Type} {id : Nat} {config : Config} {ends : γ → Prop}
      {program : Session.Activity γ} {next : γ → Activity β}
      (hprogram : Session.Assembled config (fun _ => True) ends program)
      (hnext : ∀ value, Assembled asked (next value)) :
      Assembled asked (onSession id program >>= next)

section Assembled

variable {β γ : Type} {asked : Option Ask}

theorem assembled_pure (value : β) : Assembled asked (pure value) :=
  .done value

theorem assembled_perform {action : Action} {next : action.Answer → Activity β}
    (haction : action.Serves asked) (hnext : ∀ answer, Assembled asked (next answer)) :
    Assembled asked (perform action >>= next) :=
  .act haction hnext

theorem assembled_onSession {id : Nat} {config : Config} {ends : γ → Prop}
    {program : Session.Activity γ}
    (hprogram : Session.Assembled config (fun _ => True) ends program) :
    Assembled asked (onSession id program) := by
  rw [← bind_pure (onSession id program)]
  exact .session hprogram assembled_pure

theorem Assembled.bind {program : Activity β} {next : β → Activity γ}
    (h : Assembled asked program) (hnext : ∀ value, Assembled asked (next value)) :
    Assembled asked (program >>= next) := by
  induction h with
  | done value => exact hnext value
  | act haction _ ih => exact .act haction ih
  | session hprogram _ ih =>
      rw [bind_assoc]
      exact .session hprogram ih

/-- A program that is put together from pieces keeps to a protocol if each piece does so, from
wherever it may begin to wherever the next one may. -/
theorem Assembled.follows {program : Activity β} (h : Assembled asked program)
    (rules : Protocol interface) (home : rules.Stage → Prop)
    (hserves : ∀ stage (action : Action), home stage → action.Serves asked →
      rules.Permits stage action ∧ ∀ answer, home (rules.after stage action answer))
    (hsession : ∀ (γ : Type) stage id config (ends : γ → Prop) (program : Session.Activity γ),
      home stage → Session.Assembled config (fun _ => True) ends program →
      (onSession id program).Follows rules stage fun _ stage => home stage)
    {stage : rules.Stage} (hstage : home stage) :
    program.Follows rules stage fun _ stage => home stage := by
  induction h generalizing stage with
  | done => exact hstage
  | act haction _ ih =>
      obtain ⟨hpermits, hafter⟩ := hserves stage _ hstage haction
      exact ⟨hpermits, fun answer _ => ih answer (hafter answer)⟩
  | session hprogram _ ih =>
      refine (hsession _ stage _ _ _ _ hstage hprogram).bind ?_
      intro value stage hstage
      exact ih value hstage

theorem onSession_onlyDoes (id : Nat) (program : Session.Activity γ) :
    (onSession id program).OnlyDoes fun action : Action => ∃ act, action = .on id act := by
  induction program with
  | done value => trivial
  | act action next ih => exact ⟨⟨action, rfl⟩, ih⟩

/-- What a program of a session has done when it has ended, it has done on that session. -/
theorem onSession_yields (id : Nat) (program : Session.Activity γ) :
    (onSession id program).Yields fun value deeds => ∃ more : List (Deed Session.interface),
      deeds = more.map (deedOn id) ∧ program.Leads more (.done value) := by
  induction program with
  | done value => exact ⟨[], rfl, .start _⟩
  | act action next ih =>
      intro answer
      refine (ih answer).mono ?_
      rintro value _ ⟨more, rfl, hmore⟩
      exact ⟨⟨action, answer⟩ :: more, rfl,
        Program.leads_act.mpr (.inr ⟨answer, more, rfl, hmore⟩)⟩

/-- A program of a session keeps to a ledger that permits whatever is done on that session. -/
theorem onSession_follows_ledger {permits : List (Deed interface) → Action → Prop}
    {program : Session.Activity γ} {ends : γ → List (Deed Session.interface) → Prop} {id : Nat}
    (h : program.Yields ends) (deeds : List (Deed interface))
    (hpermits : ∀ (more : List (Deed Session.interface)) action,
      permits (deeds ++ more.map (deedOn id)) (.on id action)) :
    (onSession id program).Follows (Protocol.ledger permits) deeds fun value after =>
      ∃ more : List (Deed Session.interface),
        after = deeds ++ more.map (deedOn id) ∧ ends value more := by
  induction program generalizing deeds ends with
  | done value => exact ⟨[], by simp, h⟩
  | act action next ih =>
      refine ⟨by simpa using hpermits [] action, fun answer _ => ?_⟩
      refine (ih answer (h answer) _ fun more other => ?_).mono ?_
      · simpa [deedOn] using hpermits (⟨action, answer⟩ :: more) other
      · rintro value after ⟨more, rfl, hends⟩
        exact ⟨⟨action, answer⟩ :: more, by simp [deedOn], hends⟩

/-- A program that is put together from pieces does nothing to the bridge but what may belong to
what is asked for. -/
theorem Assembled.onlyDoes {program : Activity β} (h : Assembled asked program) :
    program.OnlyDoes fun action : Action =>
      action.Serves asked ∨ ∃ id act, action = .on id act := by
  induction h with
  | done => trivial
  | act haction _ ih => exact ⟨.inl haction, ih⟩
  | @session γ id config ends program next hprogram hnext ih =>
      refine ((onSession_onlyDoes id program).mono ?_).bind ih
      rintro _ ⟨act, rfl⟩
      exact .inr ⟨id, act, rfl⟩

/-! ## Sessions -/

theorem stop_assembled_on (id : Nat) (config : Config) :
    Assembled asked (onSession id (Session.stop config)) :=
  assembled_onSession (Session.stop_assembled fun _ _ => trivial)

theorem discard_assembled (tenant? : Option Tenant) : Assembled asked (discard tenant?) := by
  cases tenant? with
  | none => exact assembled_pure ()
  | some tenant => exact stop_assembled_on _ _

theorem settleIn_assembled (surroundings : Surroundings) (tenant : Tenant) :
    Assembled asked (settleIn surroundings tenant) := by
  apply assembled_perform (by trivial)
  intro placement
  cases placement with
  | occupied => exact (discard_assembled _).bind fun _ => assembled_pure _
  | placed phase replaced => exact (discard_assembled _).bind fun _ => assembled_pure _

theorem attach_assembled (id : Nat) : Assembled asked (attach id) :=
  assembled_perform (by trivial) discard_assembled

theorem start_assembled (surroundings : Surroundings) (params : StartParams) :
    Assembled asked (start surroundings params) := by
  apply assembled_perform (by trivial)
  intro live
  cases live with
  | true => exact assembled_pure _
  | false =>
      apply assembled_perform (by trivial)
      intro id
      refine (assembled_onSession (Session.start_assembled (fun _ _ => trivial) _)).bind ?_
      intro started
      cases started with
      | error fault => exact (discard_assembled _).bind fun _ => assembled_pure _
      | ok => exact settleIn_assembled _ _

theorem stop_assembled : Assembled asked stop := by
  apply assembled_perform (by trivial)
  intro tenant?
  cases tenant? with
  | none => exact assembled_pure _
  | some tenant =>
      exact (stop_assembled_on _ _).bind fun _ =>
        assembled_perform (by trivial) fun _ => assembled_pure _

theorem status_assembled (surroundings : Surroundings) :
    Assembled asked (status surroundings) := by
  apply assembled_perform (by trivial)
  intro tenant?
  cases tenant? with
  | none => exact assembled_pure _
  | some tenant =>
      exact assembled_perform (by trivial) fun _ => assembled_perform (by trivial) fun _ =>
        assembled_perform (by trivial) fun _ => assembled_pure _

/-! ## Calls -/

theorem withTenant_assembled {program : Tenant → Activity Answer}
    (h : ∀ tenant, Assembled asked (program tenant)) : Assembled asked (withTenant program) := by
  apply assembled_perform (by trivial)
  intro tenant?
  cases tenant? with
  | none => exact assembled_pure _
  | some tenant => exact h tenant

theorem callTenant_assembled (tenant : Tenant) (call : Session.Call) :
    Assembled asked (callTenant tenant call) :=
  assembled_onSession (Session.call_assembled (fun _ _ => trivial) call)

theorem viewed_assembled (name : String) (view : Outcome → Json) (call : Session.Call) :
    Assembled asked (viewed name view call) :=
  withTenant_assembled fun tenant => (callTenant_assembled tenant call).bind fun _ =>
    assembled_pure _

theorem answered_assembled (call : Tenant → Session.Call) : Assembled asked (answered call) :=
  withTenant_assembled fun tenant => (callTenant_assembled tenant _).bind fun _ =>
    assembled_pure _

theorem insert_assembled (breakpoint : Breakpoint) :
    Assembled (some (.insert breakpoint)) (insert breakpoint) := by
  refine withTenant_assembled fun tenant => (callTenant_assembled tenant _).bind fun outcome => ?_
  cases Outcome.decoder outcome.toJson.normal with
  | error e => exact assembled_pure _
  | ok decoded =>
      show Assembled _ (if decoded.isSuccess then _ else _)
      split
      · exact assembled_perform rfl fun _ => assembled_pure _
      · exact assembled_pure _

theorem remove_assembled (breakpoint : Breakpoint) :
    Assembled (some (.remove breakpoint)) (remove breakpoint) :=
  withTenant_assembled fun tenant => (callTenant_assembled tenant _).bind fun _ =>
    assembled_perform rfl fun _ => assembled_pure _

end Assembled

theorem Ask.answer_assembled (surroundings : Surroundings) (ask : Ask) :
    Assembled (some ask) (ask.answer surroundings) := by
  cases ask with
  | start params => exact start_assembled _ _
  | stop => exact stop_assembled
  | status => exact status_assembled _
  | call | command => exact answered_assembled _
  | insert breakpoint => exact insert_assembled breakpoint
  | remove breakpoint => exact remove_assembled breakpoint
  | settings list =>
      exact withTenant_assembled fun tenant =>
        (assembled_onSession (Session.set_assembled (fun _ _ => trivial) list)).bind fun _ =>
          assembled_pure _
  | frames | locals => exact viewed_assembled _ _ _

/-! ## Errands -/

/-- A line that asks for something is served by the program of that, and any other line at once. -/
theorem Errand.program_line (surroundings : Surroundings) (text : String) :
    (∃ ask, (line text).ask? = some ask ∧ (line text).program surroundings =
      do return reply (line text).id? (← ask.answer surroundings)) ∨
    ∃ answer, (line text).ask? = none ∧ (line text).program surroundings = return answer := by
  simp only [ask?, id?, program, serve]
  split
  · exact .inr ⟨none, rfl, rfl⟩
  · rw [handleLine]
    cases Request.read? text with
    | none => exact .inr ⟨_, rfl, rfl⟩
    | some request =>
        simp only [Option.bind_some, Request.answer]
        cases Ask.read request.method request.params with
        | error refusal => exact .inr ⟨_, rfl, rfl⟩
        | ok ask => exact .inl ⟨ask, rfl, rfl⟩

/-- An errand that asks for something is done by the program of that. -/
theorem Errand.program_of_ask? {errand : Errand} {ask : Ask} (surroundings : Surroundings)
    (h : errand.ask? = some ask) : errand.program surroundings =
      do return reply errand.id? (← ask.answer surroundings) := by
  cases errand with
  | shutDown | attach | operation => cases h
  | line text =>
      rcases program_line surroundings text with ⟨other, hask, hprogram⟩ | ⟨_, hnone, -⟩
      · cases h.symm.trans hask
        exact hprogram
      · cases h.symm.trans hnone

theorem Errand.assembled (surroundings : Surroundings) (errand : Errand) :
    Assembled errand.ask? (errand.program surroundings) := by
  cases errand with
  | line text =>
      rcases program_line surroundings text with
        ⟨ask, hask, hprogram⟩ | ⟨answer, hnone, hprogram⟩
      · rw [hask, hprogram]
        exact (ask.answer_assembled surroundings).bind fun _ => assembled_pure _
      · rw [hprogram]
        exact assembled_pure _
  | shutDown =>
      exact (stop_assembled.bind fun _ => assembled_pure _).bind fun _ => assembled_pure _
  | attach id => exact (attach_assembled id).bind fun _ => assembled_pure _
  | operation id plan asked =>
      exact (assembled_onSession (asked.assembled (fun _ _ => trivial) plan)).bind fun _ =>
        assembled_pure _

/-- What the host asks for by a caller. -/
def Chronicle.asked {isFile : String → Bool} (c : Chronicle isFile) (caller : Nat) : Option Ask :=
  c.errands[caller]?.bind Errand.ask?

end DebugBridge.Bridge
