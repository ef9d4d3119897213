import DebugBridge.Proofs.Session.Farewell
import DebugBridge.Proofs.Session.Progress

/-!
# Stopped for good

A stop leads to the same end wherever it finds the session: the session has ended, commands are
impossible, and the debugger was released once, if there was one.  From then on every caller is
refused what it asks for, at once and without a trace: nothing is written, interrupted or published.

## Strategy

* With no start in progress nobody is about to make commands possible, so that they stay impossible
  once the stop has forbidden them (`Possible.uncommanded`).
* `Over` is what a stop that has returned leaves behind.  It is kept by everything that happens
  (`Over.of_turn?`), and as long as it lasts the session gives the answers of `AnswersLate`.
* With these answers, every operation comes to nothing (`Operation.late`).

## Main statements

* `stop_is_final`: a stop can always come to its return, and what holds of the session for ever once
  it has returned.
* `stop_returns_before_release`: of two stops at once, one may return before the other one has
  released the debugger.
-/

namespace DebugBridge.Session

/-! ## What a stop has done -/

/-- A stop that has ended has forbidden commands and ended the session. -/
theorem stop_yields (config : Config) : (stop config).Yields fun _ deeds =>
    (∃ allowed, ⟨.disableCommands, allowed⟩ ∈ deeds) ∧ ∃ ended, ⟨.markExited, ended⟩ ∈ deeds := by
  have hfinish : finish.Yields fun _ deeds => ∃ ended, ⟨.markExited, ended⟩ ∈ deeds := by
    intro ended
    cases ended with
    | true => exact fun _ => ⟨true, by simp⟩
    | false => exact ⟨false, by simp⟩
  have hrest (allowed : Bool) (first : Activity Unit) : (do first; finish).Yields fun _ deeds =>
      ∃ ended, (⟨.markExited, ended⟩ : Deed interface) ∈
        (⟨.disableCommands, allowed⟩ : Deed interface) :: deeds := by
    refine (Program.yields_of_forall fun _ _ => trivial : first.Yields fun _ _ => True).bind ?_
    intro _ earlier _
    refine hfinish.mono ?_
    rintro _ deeds ⟨ended, hended⟩
    exact ⟨ended, List.mem_cons_of_mem _ (List.mem_append_right _ hended)⟩
  intro allowed
  cases allowed with
  | true => exact (hrest true (quit config)).mono fun _ _ hends => ⟨⟨true, by simp⟩, hends⟩
  | false => exact (hrest false (pure ())).mono fun _ _ hends => ⟨⟨false, by simp⟩, hends⟩

section Runs

variable {host : Host} {plan : Plan} {c next later : Chronicle host Request Reply} {n : Nat}

/-- A stop that has returned has forbidden commands and ended the session. -/
theorem Possible.did_of_stop (h : Possible (Request.program plan) c)
    (hrequest : c.requests[n]? = some (.operation .stop)) (hvalue : (c.system.value? n).isSome) :
    (∃ allowed, .did (.caller n) ⟨.disableCommands, allowed⟩ ∈ c.history) ∧
      ∃ ended, .did (.caller n) ⟨.markExited, ended⟩ ∈ c.history := by
  obtain ⟨reply, hreply⟩ := Option.isSome_iff_exists.mp hvalue
  have hyields : (Request.program plan (.operation .stop)).Yields fun _ deeds =>
      (∃ allowed, ⟨.disableCommands, allowed⟩ ∈ deeds) ∧
        ∃ ended, ⟨.markExited, ended⟩ ∈ deeds := by
    refine (stop_yields plan.config).bind ?_
    intro _ deeds hdeeds
    simpa using hdeeds
  obtain ⟨⟨allowed, hallowed⟩, ended, hended⟩ :=
    hyields.of_leads (h.leads_of_value hrequest hreply)
  exact ⟨⟨allowed, h.did_of_mem_deedsOf hallowed trivial⟩,
    ended, h.did_of_mem_deedsOf hended trivial⟩

/-! ## No start in progress -/

/-- Every start that was asked for has its answer. -/
def Chronicle.StartsDone (c : Chronicle host Request Reply) : Prop :=
  ∀ n request, c.requests[n]? = some request → request.Starts → (c.system.value? n).isSome

theorem Chronicle.StartsDone.of_turn? (h : c.StartsDone) {turn : Turn Request}
    (hcalm : ∀ request ∈ turn.request?, ¬ request.Starts)
    (hturn : c.turn? (Request.program plan) turn = some next) : next.StartsDone := by
  intro n request hrequest hstarts
  rw [Chronicle.requests_of_turn? hturn] at hrequest
  by_cases hlt : n < c.requests.length
  · rw [List.getElem?_append_left hlt] at hrequest
    have hone : c.turns? (Request.program plan) [turn] = some next :=
      Chronicle.turns?_singleton.trans hturn
    exact Chronicle.isSome_of_turns? hone (h n request hrequest hstarts)
  · rw [List.getElem?_append_right (Nat.le_of_not_lt hlt)] at hrequest
    have hmem := List.mem_of_getElem? hrequest
    exact absurd hstarts (hcalm request (by simpa using hmem))

/-- With no start in progress, nobody is about to open the session. -/
theorem Possible.unopened (h : Possible (Request.program plan) c) (hstarts : c.StartsDone)
    (actor : Actor) : ¬ (dutyOf actor c.history).Opens := by
  intro hopens
  obtain ⟨n, request, rfl, hrequest, hbegins, hvalue⟩ :=
    h.exists_starter (Request.dutiful plan) hopens
  by_cases hasks : request.Starts
  · have hdone := hstarts n request hrequest hasks
    rw [hvalue] at hdone
    cases hdone
  · exact hbegins (Request.onlyDoes hasks plan)

/-- What a caller that comes later has forbidden stays so while no start is in progress. -/
theorem Possible.uncommanded (h : Possible (Request.program plan) c) (hstarts : c.StartsDone)
    (hn : c.system.callers.length ≤ n) {turns : List (Turn Request)}
    (hcalm : ∀ turn ∈ turns, ∀ request ∈ turn.request?, ¬ request.Starts)
    (hturns : c.turns? (Request.program plan) turns = some later) :
    later.StartsDone ∧ ((∃ allowed, .did (.caller n) ⟨.disableCommands, allowed⟩ ∈ later.history) →
      later.session.state.commanded = false) := by
  have habsent : deedsOf (.caller n) c.history = [] := h.accounted.absent n hn
  refine (h.preserved hturns (fun c => c.StartsDone ∧
    ((∃ allowed, .did (.caller n) ⟨.disableCommands, allowed⟩ ∈ c.history) →
      c.session.state.commanded = false)) ⟨hstarts, ?_⟩ ?_).2
  · rintro ⟨allowed, hdisabled⟩
    have hmem := mem_deedsOf.mpr (.inl hdisabled)
    rw [habsent] at hmem
    cases hmem
  intro c next turn hmem h hturn ⟨hstarts, hforbidden⟩
  refine ⟨hstarts.of_turn? (hcalm turn hmem) hturn, ?_⟩
  have hpassage := h.passage (Request.dutiful plan) (Chronicle.change_of_turn? hturn)
  have hstays := (hpassage.of_unopened (h.unopened hstarts)).1
  rintro ⟨allowed, hdisabled⟩
  cases hpassage with
  | aside hhistory =>
      exact hstays (hforbidden ⟨allowed, mem_of_aside hhistory hdisabled trivial⟩)
  | step hpermits haction hperform hhistory =>
      rw [hhistory] at hdisabled
      rcases List.mem_append.mp hdisabled with hdisabled | hdisabled
      · exact hstays (hforbidden ⟨allowed, hdisabled⟩)
      · cases List.mem_singleton.mp hdisabled
        rw [(perform_disableCommands hperform).2]

end Runs

/-! ## A session that is over -/

/-- The session has ended, and commands are impossible for good. -/
structure Over (state : State) (history : History) : Prop where
  hasEnded : state.core.HasEnded
  shut : Shut state history

/-- How a session that is over answers. -/
def AnswersLate : (action : Action) → action.Answer → Prop
  | .isExited, exited => exited = true
  | .commandsEnabled, enabled => enabled = false
  | .disableCommands, allowed => allowed = false
  | .markExited, ended => ended = false
  | .beginStart, idle => idle = false
  | _, _ => True

section Over

variable {state after : State} {history : History}

theorem Over.answersLate (h : Over state history) {reaction : Option Fault} {action : Action}
    {answer : action.Answer} (hperform : state.perform reaction action = some (after, answer)) :
    AnswersLate action answer := by
  have hexited : state.core.slot.exited = true := h.hasEnded.isExited
  cases action with
  | isExited =>
      cases hperform
      exact hexited
  | commandsEnabled | disableCommands =>
      cases hperform
      exact h.shut.commanded
  | markExited =>
      cases hperform
      simp [AnswersLate, Core.markExited, hexited]
  | beginStart =>
      cases hperform
      simp [AnswersLate, Core.beginStart, h.hasEnded.phase]
  | _ => trivial

theorem Over.answersLate_of_effect (h : Over state history) {occurrence : Occurrence}
    (heffect : Effect state occurrence after) {actor : Actor} {deed : Deed interface}
    (hdeed : occurrence.deedOf? actor = some deed) : AnswersLate deed.action deed.answer := by
  cases heffect with
  | did hperform =>
      obtain ⟨-, rfl⟩ := by simpa [Occurrence.deedOf?] using hdeed
      exact h.answersLate hperform
  | @gaveUp actor reaction action answer next hwait hgiveUp =>
      obtain ⟨-, rfl⟩ := by simpa [Occurrence.deedOf?] using hdeed
      cases action with
      | isExited | commandsEnabled | disableCommands | markExited | beginStart => cases hgiveUp
      | _ => trivial
  | printed => cases hdeed

end Over

/-! ## Asking too late -/

/-- Whether an action is felt outside of the session: by the debugger or by the subscribers. -/
def Action.IsFelt : Action → Prop
  | write _ | publish _ | interrupt _ | settle _ _ | launch | connect | closeInput | terminate =>
      True
  | _ => False

/-- Whether an action comes to nothing when the session is over; `gate` says whether the gate is
awaited as well. -/
def Action.IsVain (gate : Prop) : Action → Prop
  | isExited | commandsEnabled | disableCommands | markExited | beginStart => True
  | acquire _ | release => gate
  | _ => False

/-- Nothing that is done to a session that is over comes to anything. -/
abbrev late (gate : Prop) : Protocol interface :=
  Protocol.uniform (Action.IsVain gate) AnswersLate

theorem Action.IsVain.not_isFelt {gate : Prop} {action : Action} (h : action.IsVain gate) :
    ¬ action.IsFelt := by
  cases action <;> first | exact id | exact absurd h id

/-- What comes to nothing leaves the session as it is. -/
theorem Over.perform_eq {state : State} {history : History} (h : Over state history)
    {action : Action} (haction : action.IsVain False) :
    ∃ answer, state.perform none action = some (state, answer) ∧ AnswersLate action answer := by
  have hexited : state.core.slot.exited = true := h.hasEnded.isExited
  have hperform : ∃ answer, state.perform none action = some (state, answer) := by
    cases action with
    | isExited | commandsEnabled => exact ⟨_, rfl⟩
    | disableCommands =>
        have hsame : { state with commanded := false } = state := by rw [← h.shut.commanded]
        exact ⟨state.commanded, by rw [State.perform, hsame]⟩
    | markExited =>
        exact ⟨false, by simp [State.perform, State.askCore, Core.markExited, hexited]⟩
    | beginStart =>
        exact ⟨false, by simp [State.perform, State.askCore, Core.beginStart, h.hasEnded.phase]⟩
    | _ => exact absurd haction id
  obtain ⟨answer, hanswer⟩ := hperform
  exact ⟨answer, hanswer, h.answersLate hanswer⟩

/-- Who does nothing but what comes to nothing gets its answer at once. -/
theorem Over.run?_eq {state : State} {history : History} (h : Over state history) {β : Type}
    {program : Activity β} {ends : β → Prop}
    (hfollows : program.Follows (late False) () fun value _ => ends value) :
    ∃ value, state.run? program = some (state, value) ∧ ends value := by
  induction program with
  | done value => exact ⟨value, rfl, hfollows⟩
  | act action next ih =>
      obtain ⟨answer, hperform, hlate⟩ := h.perform_eq hfollows.1
      obtain ⟨value, hrun, hends⟩ := ih answer (hfollows.2 answer hlate)
      refine ⟨value, ?_, hends⟩
      rw [State.run?, hperform]
      exact hrun

/-- What an operation may be answered when the session is over. -/
def Operation.lateReplies : Operation → List Reply
  | start | startConnected => [.started (.error .alreadyStarted)]
  | stop => [.noted]
  | call _ | command _ _ => [.outcomes [.sessionExited]]
  | set settings => [.outcomes ((settings.take 1).map fun _ => .sessionExited)]
  | tryCommand _ _ => [.outcomes [.sessionExited], .outcomes []]

/-- Whether an operation waits for the gate without asking whether commands are possible. -/
def Operation.WaitsForGate : Operation → Prop
  | command _ _ | tryCommand _ _ => True
  | start | startConnected | stop | call _ | set _ => False

section Late

variable {gate : Prop}

theorem admitted_late (config : Config) (line : String) (limit : Nat) :
    (admitted config line limit).Follows (late gate) () fun outcome _ =>
      outcome = .sessionExited := by
  refine ⟨trivial, fun exited hexited => ?_⟩
  obtain rfl : exited = true := hexited
  rfl

theorem runCommand_late (hgate : gate) (config : Config) (line : String) (limit : Nat) :
    (runCommand config line limit).Follows (late gate) () fun outcome _ =>
      outcome = .sessionExited := by
  refine ⟨hgate, fun _ _ => (admitted_late config line limit).bind ?_⟩
  rintro _ _ rfl
  exact ⟨hgate, fun _ _ => rfl⟩

theorem tryRunCommand_late (hgate : gate) (config : Config) (line : String) (limit : Nat) :
    (tryRunCommand config line limit).Follows (late gate) () fun result _ =>
      result = some .sessionExited ∨ result = none := by
  refine ⟨hgate, fun granted _ => ?_⟩
  cases granted with
  | true =>
      refine (admitted_late config line limit).bind ?_
      rintro _ _ rfl
      exact ⟨hgate, fun _ _ => .inl rfl⟩
  | false => exact .inr rfl

theorem whenCommanded_late (program : Activity Outcome) :
    (whenCommanded program).Follows (late gate) () fun outcome _ => outcome = .sessionExited := by
  refine ⟨trivial, fun enabled henabled => ?_⟩
  obtain rfl : enabled = false := henabled
  refine ⟨trivial, fun exited hexited => ?_⟩
  obtain rfl : exited = true := hexited
  rfl

theorem set_late (config : Config) (settings : List String) :
    (Session.set config settings).Follows (late gate) () fun outcomes _ =>
      outcomes = (settings.take 1).map fun _ => .sessionExited := by
  cases settings with
  | nil => rfl
  | cons setting rest =>
      refine (whenCommanded_late _).bind ?_
      rintro _ _ rfl
      rfl

theorem stop_late (config : Config) : (stop config).Follows (late gate) () fun _ _ => True := by
  refine ⟨trivial, fun allowed hallowed => ?_⟩
  obtain rfl : allowed = false := hallowed
  refine ⟨trivial, fun ended hended => ?_⟩
  obtain rfl : ended = false := hended
  trivial

/-- Whatever is asked of a session that is over is refused. -/
theorem Operation.late (plan : Plan) (operation : Operation) :
    (operation.program plan).Follows (Session.late operation.WaitsForGate) () fun reply _ =>
      reply ∈ operation.lateReplies := by
  cases operation with
  | start | startConnected =>
      refine ⟨trivial, fun idle hidle => ?_⟩
      obtain rfl : idle = false := hidle
      exact List.mem_singleton_self _
  | stop => exact (stop_late plan.config).bind fun _ _ _ => List.mem_singleton_self _
  | call request =>
      refine (whenCommanded_late _).bind ?_
      rintro _ _ rfl
      exact List.mem_singleton_self _
  | set settings =>
      refine (set_late plan.config settings).bind ?_
      rintro _ _ rfl
      exact List.mem_singleton_self _
  | command line limit =>
      refine (runCommand_late trivial plan.config line limit).bind ?_
      rintro _ _ rfl
      exact List.mem_singleton_self _
  | tryCommand line limit =>
      refine (tryRunCommand_late trivial plan.config line limit).bind ?_
      rintro _ _ (rfl | rfl)
      · exact List.mem_cons_self
      · exact List.mem_cons_of_mem _ (List.mem_singleton_self _)

end Late

section Runs

variable {host : Host} {plan : Plan} {c next later : Chronicle host Request Reply} {n : Nat}

/-- A session that is over stays so. -/
theorem Over.of_turn? (h : Over c.session.state c.history) (hpossible : Possible (Request.program plan) c)
    {turn : Turn Request} (hturn : c.turn? (Request.program plan) turn = some next) :
    Over next.session.state next.history := by
  have hchange := Chronicle.change_of_turn? hturn
  have hpassage := hpossible.passage (Request.dutiful plan) hchange
  refine ⟨?_, (h.shut.of_passage hpassage).1⟩
  rcases hchange.effect with ⟨-, hcore⟩ | ⟨occurrence, -, heffect⟩
  · rw [hcore]
    exact h.hasEnded
  · exact heffect.hasEnded h.hasEnded

/-- Who comes to a session that is over gets the answers of such a session. -/
theorem Possible.answersLate (h : Possible (Request.program plan) c)
    (hover : Over c.session.state c.history) {turns : List (Turn Request)}
    (hturns : c.turns? (Request.program plan) turns = some later) :
    Over later.session.state later.history ∧ ∀ n, c.system.callers.length ≤ n →
      ∀ deed ∈ deedsOf (.caller n) later.history, AnswersLate deed.action deed.answer := by
  refine (h.preserved hturns (fun next => Over next.session.state next.history ∧
    ∀ n, c.system.callers.length ≤ n →
      ∀ deed ∈ deedsOf (.caller n) next.history, AnswersLate deed.action deed.answer)
    ⟨hover, ?_⟩ ?_).2
  · intro n hn deed hdeed
    have habsent : deedsOf (.caller n) c.history = [] := h.accounted.absent n hn
    rw [habsent] at hdeed
    cases hdeed
  intro first second turn _ hfirst hturn ⟨hover, hanswers⟩
  refine ⟨hover.of_turn? hfirst hturn, fun n hn => ?_⟩
  rcases (Chronicle.change_of_turn? hturn).effect with ⟨hsame, -⟩ | ⟨occurrence, hlast, heffect⟩
  · rw [hsame]
    exact hanswers n hn
  · rw [hlast]
    cases hdeed : occurrence.deedOf? (.caller n) with
    | none =>
        rw [deedsOf_append_of_none hdeed]
        exact hanswers n hn
    | some deed =>
        rw [deedsOf_append_of_some hdeed]
        have hlate := hover.answersLate_of_effect heffect hdeed
        simpa [or_imp, forall_and] using ⟨hanswers n hn, hlate⟩

/-- Who comes to a session that is over does nothing that is felt, and is refused. -/
theorem Possible.refused (h : Possible (Request.program plan) c)
    (hanswers : ∀ deed ∈ deedsOf (.caller n) c.history, AnswersLate deed.action deed.answer)
    {operation : Operation} (hrequest : c.requests[n]? = some (.operation operation)) :
    (∀ deed ∈ deedsOf (.caller n) c.history, ¬ deed.action.IsFelt) ∧
      ∀ reply, c.system.value? n = some reply → reply ∈ operation.lateReplies := by
  constructor
  · intro deed hdeed
    have hkeeps := h.keeps_of_request hrequest (operation.late plan) hanswers
    exact (Protocol.permits_of_mem hkeeps deed hdeed).not_isFelt
  · intro reply hreply
    exact (h.leads_of_value hrequest hreply).follows hanswers (operation.late plan)

/-- A session does nothing for those who come to it from some caller on, and refuses them. -/
structure Refuses {host : Host} (plan : Plan) (since : Nat) (c : Chronicle host Request Reply) :
    Prop where
  unfelt : ∀ n operation, since ≤ n → c.requests[n]? = some (.operation operation) →
    ∀ deed ∈ deedsOf (.caller n) c.history, ¬ deed.action.IsFelt
  refused : ∀ n operation reply, since ≤ n → c.requests[n]? = some (.operation operation) →
    c.system.value? n = some reply → reply ∈ operation.lateReplies
  /-- whoever asks now need not wait for that, and leaves the session as it is -/
  atOnce : ∀ operation : Operation, ¬ operation.WaitsForGate → ∃ reply ∈ operation.lateReplies,
    c.session.state.run? (operation.program plan) = some (c.session.state, reply)

/-- A session that is over refuses whoever comes. -/
theorem Possible.refuses (h : Possible (Request.program plan) c)
    (hover : Over c.session.state c.history) {turns : List (Turn Request)}
    (hturns : c.turns? (Request.program plan) turns = some later) :
    Over later.session.state later.history ∧ Refuses plan c.system.callers.length later := by
  obtain ⟨hover', hanswers⟩ := h.answersLate hover hturns
  have hrefused {n : Nat} {operation : Operation} (hn : c.system.callers.length ≤ n)
      (hrequest : later.requests[n]? = some (.operation operation)) :=
    (h.turns turns hturns).refused (hanswers n hn) hrequest
  refine ⟨hover', fun n operation hn hrequest => (hrefused hn hrequest).1,
    fun n operation reply hn hrequest => (hrefused hn hrequest).2 reply, ?_⟩
  intro operation hwaits
  have hlate := operation.late plan
  rw [eq_false hwaits] at hlate
  obtain ⟨reply, hrun, hreply⟩ := hover'.run?_eq hlate
  exact ⟨reply, hreply, hrun⟩

/-- Once every stop has returned, the debugger of a session that is over was released, if there was
one. -/
theorem Possible.released (h : Possible (Request.program plan) c)
    (hover : Over c.session.state c.history) (hstarts : c.StartsDone) {turns : List (Turn Request)}
    (hturns : c.turns? (Request.program plan) turns = some later)
    (hstops : ∀ n, later.requests[n]? = some (.operation .stop) →
      (later.system.value? n).isSome) :
    later.session.state.wire.inputsClosed = later.session.state.wire.connected.toNat ∧
      later.session.state.wire.terminations = later.session.state.wire.connected.toNat := by
  obtain ⟨hover', hanswers⟩ := h.answersLate hover hturns
  have hrequests := Chronicle.requests_of_turns? hturns
  have hlater := h.turns turns hturns
  refine (hlater.standing (Request.dutiful plan)).released_of_none ?_ hover'.shut.commanded
  intro actor
  refine Duty.holdings?_eq_none (hover'.shut.unopened actor) ?_
  intro hreleases
  obtain ⟨n, request, rfl, hrequest, hforbids, hdisabled, hvalue⟩ :=
    hlater.exists_releaser (Request.dutiful plan) hreleases
  -- it has come before the session was over
  have hlt : n < c.requests.length := by
    refine Nat.lt_of_not_le fun hle => ?_
    have hlate : AnswersLate .disableCommands true :=
      hanswers n (h.accounted.length_eq ▸ hle) _ hdisabled
    cases hlate
  have hsame : later.requests[n]? = c.requests[n]? := by
    rw [hrequests, List.getElem?_append_left hlt]
  -- and it has got its answer, whether it asked for a start or for a stop
  have hdone : (later.system.value? n).isSome := by
    by_cases hasks : request.Starts
    · exact Chronicle.isSome_of_turns? hturns (hstarts n request (hsame ▸ hrequest) hasks)
    · rw [Request.eq_stop hasks hforbids] at hrequest
      exact hstops n hrequest
  rw [hvalue] at hdone
  cases hdone

end Runs

/-! ## Main result -/

/-- What holds of a session for ever after a stop has returned, `since` being the first caller that
came after that. -/
structure Stopped {host : Host} (plan : Plan) (since : Nat) (c : Chronicle host Request Reply) :
    Prop where
  phase : c.session.state.core.phase = .exited
  commanded : c.session.state.commanded = false
  atMostOnce : c.session.state.holdings.AtMostOnce
  /-- once no other stop is in progress, the debugger was released, if there was one -/
  released : (∀ n, c.requests[n]? = some (.operation .stop) → (c.system.value? n).isSome) →
    c.session.state.wire.inputsClosed = c.session.state.wire.connected.toNat ∧
      c.session.state.wire.terminations = c.session.state.wire.connected.toNat
  unfelt : ∀ n operation, since ≤ n → c.requests[n]? = some (.operation operation) →
    ∀ deed ∈ deedsOf (.caller n) c.history, ¬ deed.action.IsFelt
  refused : ∀ n operation reply, since ≤ n → c.requests[n]? = some (.operation operation) →
    c.system.value? n = some reply → reply ∈ operation.lateReplies
  /-- whoever asks now need not wait for that, and leaves the session as it is -/
  atOnce : ∀ operation : Operation, ¬ operation.WaitsForGate → ∃ reply ∈ operation.lateReplies,
    c.session.state.run? (operation.program plan) = some (c.session.state, reply)

/-- Those who ask for something that concerns the session as a whole write the command to quit once
at most, all of them together, and only when they are ready to. -/
def Chronicle.QuitsOnce {host : Host} (c : Chronicle host Request Reply) (config : Config) : Prop :=
  ∀ n request past future fault, c.requests[n]? = some request → request.Governs →
    c.history = past ++ .did (.caller n) ⟨.write "-gdb-exit", fault⟩ :: future →
    ReadyToQuit config (deedsOf (.caller n) past) ∧
      ∀ m other earlier, c.requests[m]? = some other → other.Governs →
        .did (.caller m) ⟨.write "-gdb-exit", earlier⟩ ∉ past

section Runs

variable {host : Host} {plan : Plan} {c later : Chronicle host Request Reply}

theorem Possible.stopped (h : Possible (Request.program plan) c)
    (hover : Over c.session.state c.history) (hstarts : c.StartsDone) {turns : List (Turn Request)}
    (hturns : c.turns? (Request.program plan) turns = some later) :
    Stopped plan c.system.callers.length later := by
  obtain ⟨hover', hrefuses⟩ := h.refuses hover hturns
  have hlater := h.turns turns hturns
  exact
    { phase := hover'.hasEnded.phase
      commanded := hover'.shut.commanded
      atMostOnce := (hlater.standing (Request.dutiful plan)).at_most_once
      released := h.released hover hstarts hturns
      unfelt := hrefuses.unfelt
      refused := hrefuses.refused
      atOnce := hrefuses.atOnce }

end Runs

/-- A stop with no start in progress can come to its return whatever the debugger does.  Once it has
returned the session has ended, commands are impossible, the debugger was released once if there was
one, and whoever comes later is refused without being felt; and so it remains.  The debugger is asked
to quit at most once, and only when that is possible. -/
theorem stop_is_final (host : Host) (plan : Plan) (before c : Chronicle host Request Reply)
    (h : Possible (Request.program plan) before) (hstarts : before.StartsDone)
    (turns : List (Turn Request))
    (hcalm : ∀ turn ∈ turns, ∀ request ∈ turn.request?, ¬ request.Starts)
    (hturns : before.turns? (Request.program plan) (.request (.operation .stop) :: turns) =
      some c) :
    (∃ more later, (∀ turn ∈ more, ∃ m, turn.IsOf m) ∧
      c.turns? (Request.program plan) more = some later ∧
      (later.system.value? before.system.callers.length).isSome) ∧
    c.QuitsOnce plan.config ∧
    ((c.system.value? before.system.callers.length).isSome → ∀ more later,
      c.turns? (Request.program plan) more = some later →
        Stopped plan c.system.callers.length later ∧ later.QuitsOnce plan.config) := by
  have hc : Possible (Request.program plan) c := h.turns _ hturns
  have hquits {c : Chronicle host Request Reply} (hc : Possible (Request.program plan) c) :
      c.QuitsOnce plan.config := fun n request past future fault hrequest hgoverns hhistory =>
    hc.quits_once hrequest hgoverns hhistory
  have hrequest : c.requests[before.system.callers.length]? = some (.operation .stop) := by
    rw [Chronicle.requests_of_turns? hturns, ← h.accounted.length_eq]
    simp [Turn.request?]
  refine ⟨?_, hquits hc, ?_⟩
  · obtain ⟨rest, hcaller, -⟩ := hc.leads_of_request hrequest
    obtain ⟨more, later, value, hmore, hlater, hvalue⟩ :=
      hc.exists_return (Request.conducted plan) hcaller
    exact ⟨more, later, hmore, hlater, Option.isSome_iff_exists.mpr ⟨value, hvalue⟩⟩
  · intro hvalue more later hmore
    have hcalm' : ∀ turn ∈ (.request (.operation .stop) :: turns : List (Turn Request)),
        ∀ request ∈ turn.request?, ¬ request.Starts :=
      List.forall_mem_cons.mpr ⟨by simp [Turn.request?, Request.Starts, Operation.Starts], hcalm⟩
    obtain ⟨hdone, hforbidden⟩ := h.uncommanded hstarts (Nat.le_refl _) hcalm' hturns
    obtain ⟨hdisabled, ended, hended⟩ := hc.did_of_stop hrequest hvalue
    have hover : Over c.session.state c.history :=
      { hasEnded := hc.hasEnded_of_markExited hended
        shut :=
          { commanded := hforbidden hdisabled
            phase := fun hidle => by
              rw [(hc.hasEnded_of_markExited hended).phase] at hidle
              cases hidle
            unopened := hc.unopened hdone } }
    exact ⟨hc.stopped hover hdone hmore, hquits (hc.turns more hmore)⟩

/-- A session in use is stopped: it asks the debugger to quit, gets an answer, and is over.  A call
that comes then is refused. -/
theorem stop_is_final_of_use : ∃ before c later : Chronicle Host.blind Request Reply,
    Possible (Request.program Plan.plain) before ∧ before.StartsDone ∧
      before.session.state.core.phase = .ready ∧ "-gdb-exit" ∈ written c.history ∧
      Stopped Plan.plain c.system.callers.length later ∧
      later.session.state.wire.terminations = 1 ∧
      later.system.value? c.system.callers.length = some (.outcomes [.sessionExited]) := by
  let accept : List (Turn Request) := [.request (.result (.ofMessage .done ""))]
  let stops : List (Turn Request) := Turn.acts 4 8 ++ accept ++ Turn.acts 5 2 ++ Turn.acts 4 6
  have hcalm : ∀ turn ∈ stops, ∀ request ∈ turn.request?, ¬ request.Starts := by
    simp [stops, accept, Turn.acts, Turn.request?, Request.Starts]
  obtain ⟨before, c, later, hbefore, hquiet, hphase, hcallers, hturns, hvalue, hmore, hwritten,
      hterminated, hlast⟩ : ∃ before c later : Chronicle Host.blind Request Reply,
      Chronicle.turns? (Request.program Plan.plain) {} (List.flatten
        [[.request (.operation .startConnected), .request (.line "(gdb)")], Turn.acts 1 2,
          Turn.acts 0 11, accept, Turn.acts 2 2, Turn.acts 0 8, accept, Turn.acts 3 2,
          Turn.acts 0 3]) = some before ∧
      before.isQuiet = true ∧ before.session.state.core.phase = .ready ∧
      before.system.callers.length = 4 ∧
      before.turns? (Request.program Plan.plain) (.request (.operation .stop) :: stops) = some c ∧
      (c.system.value? 4).isSome = true ∧
      c.turns? (Request.program Plan.plain)
        (.request (.operation (.call .run)) :: Turn.acts 6 2) = some later ∧
      (written c.history).contains "-gdb-exit" = true ∧
      later.session.state.wire.terminations = 1 ∧
      later.system.value? c.system.callers.length = some (Reply.outcomes [.sessionExited]) :=
    ⟨_, _, _, rfl, rfl, rfl, rfl, rfl, rfl, rfl, rfl, rfl, rfl⟩
  have h := Possible.fresh.turns _ hbefore
  have hdone : before.StartsDone := fun _ _ hrequest _ => h.isSome_value? hquiet hrequest
  obtain ⟨-, -, hfinal⟩ := stop_is_final _ _ before c h hdone stops hcalm hturns
  obtain ⟨hstopped, -⟩ := hfinal (hcallers ▸ hvalue) _ later hmore
  exact ⟨before, c, later, h, hdone, hphase, by simpa using hwritten, hstopped, hterminated, hlast⟩

/-- Two stops overlap while the target runs: the second one has returned, and has announced the end,
while the first one still waits for the target, and the debugger is not released. -/
theorem stop_returns_before_release : ∃ before c : Chronicle Host.blind Request Reply,
    Possible (Request.program Plan.plain) before ∧ before.StartsDone ∧
      before.turns? (Request.program Plan.plain)
        (.request (.operation .stop) :: Turn.acts before.system.callers.length 3) = some c ∧
      (c.system.value? before.system.callers.length).isSome = true ∧
      c.session.state.wire.connected = true ∧ c.session.state.wire.inputsClosed = 0 ∧
      c.session.state.wire.terminations = 0 ∧
      .did (.caller before.system.callers.length) ⟨.publish .exited, ()⟩ ∈ c.history := by
  let accept : List (Turn Request) := [.request (.result (.ofMessage .done ""))]
  obtain ⟨before, c, hbefore, hrequests, hstarted, hcallers, hturns, hvalue, hconnected, hopen,
      halive, hpublished⟩ : ∃ before c : Chronicle Host.blind Request Reply,
      Chronicle.turns? (Request.program Plan.plain) {} (List.flatten
        [[.request (.operation .startConnected), .request (.line "(gdb)")], Turn.acts 1 2,
          Turn.acts 0 11, accept, Turn.acts 2 2, Turn.acts 0 8, accept, Turn.acts 3 2,
          Turn.acts 0 3, [.request (.operation (.call .run))], Turn.acts 4 7,
          [.request (.result (.ofMessage .running ""))], Turn.acts 5 2, Turn.acts 4 2,
          [.request (.operation .stop)], Turn.acts 6 4]) = some before ∧
      before.requests.tail = [.line "(gdb)", .result (.ofMessage .done ""),
        .result (.ofMessage .done ""), .operation (.call .run), .result (.ofMessage .running ""),
        .operation .stop] ∧
      (before.system.value? 0).isSome = true ∧ before.system.callers.length = 7 ∧
      before.turns? (Request.program Plan.plain)
        (.request (.operation .stop) :: Turn.acts 7 3) = some c ∧
      (c.system.value? 7).isSome = true ∧ c.session.state.wire.connected = true ∧
      c.session.state.wire.inputsClosed = 0 ∧ c.session.state.wire.terminations = 0 ∧
      c.history.getLast? = some (.did (.caller 7) ⟨.publish .exited, ()⟩) :=
    ⟨_, _, rfl, rfl, rfl, rfl, rfl, rfl, rfl, rfl, rfl, rfl⟩
  have hdone : before.StartsDone := by
    intro n request hrequest hstarts
    cases n with
    | zero => exact hstarted
    | succ n =>
        have hmem : request ∈ before.requests.tail :=
          List.mem_of_getElem? (List.getElem?_tail.trans hrequest)
        rw [hrequests] at hmem
        simp only [List.mem_cons, List.not_mem_nil, or_false] at hmem
        obtain rfl | rfl | rfl | rfl | rfl | rfl := hmem <;> cases hstarts
  refine ⟨before, c, Possible.fresh.turns _ hbefore, hdone, ?_⟩
  rw [hcallers]
  exact ⟨hturns, hvalue, hconnected, hopen, halive, List.mem_of_getLast? hpublished⟩

end DebugBridge.Session
