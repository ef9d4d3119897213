import DebugBridge.Proofs.Session.Startup
import DebugBridge.Proofs.Session.Window

/-!
# The end releases everyone who waits

Callers wait in several places: for the result of a command, for the target to stop, for the first
output, and for the gate.  The end of the session is a reason to go on in all of them but the last,
and the gate is held by callers that go on.  So after the end nobody waits until a time is over,
except perhaps for the gate.

## Strategy

* `State.exists_perform`: in a session that has ended, every action but the wait for the gate can be
  performed at once.
* `Gated` is what is known about a program that is granted the gate: it goes on with a command.
  Every request is so (`Request.gated`), so what follows on a grant after the end is a command that
  finds the session ended (`Possible.exited_of_granted`).

## Main statements

* `end_releases_everyone`: with what each caller that waits goes on, once the session has ended.
-/

namespace DebugBridge.Session

/-! ## Who need not wait -/

/-- In a session that has ended, nobody waits except for the gate. -/
theorem State.exists_perform {state : State} (hended : state.core.HasEnded) {action : Action}
    (hgate : ∀ limit, action ≠ .acquire limit) (reaction : Option Fault) :
    ∃ result, state.perform reaction action = some result := by
  cases action with
  | acquire limit => exact absurd rfl (hgate limit)
  | awaitOutput limit => exact ⟨_, if_pos (by simp [hended.phase])⟩
  | awaitResult ticket limit claimed =>
      have hexited : state.core.slot.exited = true := hended.isExited
      simp only [State.perform, Core.collect?, hexited, if_true]
      split <;> exact ⟨_, rfl⟩
  | settle interval more => exact ⟨_, if_pos hended.phase⟩
  | interrupt more =>
      simp only [State.perform]
      split <;> exact ⟨_, rfl⟩
  | launch | write => cases reaction <;> exact ⟨_, rfl⟩
  | _ => exact ⟨_, rfl⟩

/-- What the command in flight finds in a session that has ended: the record that was delivered to
it, or the end. -/
theorem Core.HasEnded.exists_collect {core : Core} (h : core.HasEnded) {ticket : Nat}
    (harmed : core.slot.armed = some ticket) : ∃ after : Core,
      core.collect? ticket = some (after, core.slot.result.getD .sessionExited) ∧
        after.slot.armed = none := by
  have hexited : core.slot.exited = true := h.isExited
  cases hresult : core.slot.result with
  | some outcome => exact ⟨_, Core.collect?_of_result harmed hresult, rfl⟩
  | none => exact ⟨core.disarm, by simp [Core.collect?, harmed, hresult, hexited], rfl⟩

section GoesOn

variable {host : Host} {ρ α : Type}

/-- A caller need not wait.  It cannot give up, and when it is its turn it does this, which leaves
the session in this state and the caller with that rest of its program. -/
structure GoesOn (program : ρ → Activity α) (c : Chronicle host ρ α) (n : Nat)
    (deed : Deed interface) (state : State) (rest : Activity α) : Prop where
  firm : ∀ reaction, c.turn? program (.expire n reaction) = none
  turn : ∀ reaction, c.turn? program (.act n reaction) = some
    { c with
      system := ⟨{ c.session with state }, c.system.callers.set n rest⟩
      history := c.history ++ [.did (.caller n) deed] }

theorem goesOn_of_perform {program : ρ → Activity α} {c : Chronicle host ρ α} {n : Nat}
    {action : Action} {next : action.Answer → Activity α} {state : State} {answer : action.Answer}
    (hcaller : c.system.callers[n]? = some (.act action next))
    (hperform : ∀ reaction, c.session.state.perform reaction action = some (state, answer)) :
    GoesOn program c n ⟨action, answer⟩ state (next answer) where
  firm reaction :=
    Chronicle.turn?_expire_of_perform hcaller (withState_of_eq_some (hperform reaction))
  turn reaction := Chronicle.turn?_act hcaller (withState_of_eq_some (hperform reaction))

end GoesOn

/-! ## Callers that wait when the session has ended -/

section Waiting

variable {host : Host} {ρ α : Type} {program : ρ → Activity α} {c : Chronicle host ρ α} {n : Nat}

theorem Possible.hasEnded_of_ended (h : Possible program c) (hend : Ended c.history) :
    c.session.state.core.HasEnded := by
  obtain ⟨ender, hmem⟩ := hend
  exact h.hasEnded hmem

/-- A command that waits returns the record that was delivered last, or the end of the session, and
leaves the slot to nobody. -/
theorem Possible.goesOn_of_awaitResult (h : Possible program c) (hprogram : Disciplined program)
    (hend : Ended c.history) {ticket limit : Nat} {claimed : Bool} {next : Outcome → Activity α}
    (hcaller : c.system.callers[n]? = some (.act (.awaitResult ticket limit claimed) next)) :
    ∃ armed outcome state, ArmsAt c.history n ticket armed ∧
      outcome = ((deliveries (c.history.drop (armed + 1))).getLast?).getD .sessionExited ∧
      GoesOn program c n ⟨.awaitResult ticket limit claimed, outcome⟩ state (next outcome) ∧
      state.core.slot.armed = none ∧ state.wire = c.session.state.wire := by
  obtain ⟨harmed, before, since, hhistory, -, hresult, -, -⟩ := h.airborne_of_await hprogram hcaller
  obtain ⟨core, hcollect, hdisarmed⟩ := (h.hasEnded_of_ended hend).exists_collect harmed
  have hsince : c.history.drop (before.length + 1) = since := by
    rw [hhistory]
    simp [List.drop_append]
  have hperform (reaction : Option Fault) :
      c.session.state.perform reaction (.awaitResult ticket limit claimed) = some
        ({ c.session.state with core }, c.session.state.core.slot.result.getD .sessionExited) := by
    rw [State.perform, hcollect]
    rfl
  refine ⟨before.length, _, _, ?_, ?_, goesOn_of_perform hcaller hperform, hdisarmed, rfl⟩
  · rw [ArmsAt, hhistory]
    simp
  · rw [hresult, hsince]

/-- A pause that waits after an interrupt returns the end of the session, without another one. -/
theorem Possible.goesOn_of_settle (h : Possible program c) (hend : Ended c.history)
    {interval attempts : Nat} {next : Outcome → Activity α}
    (hcaller : c.system.callers[n]? = some (settle interval attempts >>= next)) :
    GoesOn program c n ⟨.settle interval (attempts != 0), .exited⟩ c.session.state
      (next .sessionExited) := by
  have hphase := (h.hasEnded_of_ended hend).phase
  cases attempts with
  | zero => exact goesOn_of_perform hcaller fun _ => if_pos hphase
  | succ attempts => exact goesOn_of_perform hcaller fun _ => if_pos hphase

/-- A start that waits for output goes on, knowing whether a line was read. -/
theorem Possible.goesOn_of_awaitOutput (h : Possible program c) (hend : Ended c.history)
    {limit : Nat} {next : Bool → Activity α}
    (hcaller : c.system.callers[n]? = some (.act (.awaitOutput limit) next)) :
    ∃ heard, (heard = true ↔ Heard c.history) ∧
      GoesOn program c n ⟨.awaitOutput limit, heard⟩ c.session.state (next heard) := by
  have hphase := (h.hasEnded_of_ended hend).phase
  refine ⟨_, h.heard_iff, goesOn_of_perform hcaller fun _ => if_pos ?_⟩
  simp [hphase]

/-- A command that is about to be admitted returns the end of the session. -/
theorem Possible.goesOn_of_admitted (h : Possible program c) (hend : Ended c.history)
    {config : Config} {line : String} {limit : Nat} {next : Outcome → Activity α}
    (hcaller : c.system.callers[n]? = some (admitted config line limit >>= next)) :
    GoesOn program c n ⟨.isExited, true⟩ c.session.state (next .sessionExited) := by
  have hexited := (h.hasEnded_of_ended hend).isExited
  refine goesOn_of_perform hcaller fun _ => ?_
  rw [State.perform, hexited]

/-- After the end, only who waits for the gate gives up. -/
theorem Possible.eq_acquire_of_gaveUp (h : Possible program c) {past future : History}
    {actor : Actor} {deed : Deed interface}
    (hhistory : c.history = past ++ .gaveUp actor deed :: future) (hend : Ended past) :
    ∃ limit, deed.action = .acquire (some limit) := by
  obtain ⟨earlier, later, hmoment, rfl, hlater⟩ := h.exists_moment hhistory
  have hended := hmoment.possible.hasEnded_of_ended hend
  cases hmoment.effect hlater with
  | @gaveUp actor reaction action answer state hwait hgiveUp =>
      by_cases hgate : ∃ limit, action = .acquire limit
      · obtain ⟨limit, rfl⟩ := hgate
        cases limit with
        | none => cases hgiveUp
        | some limit => exact ⟨limit, rfl⟩
      · obtain ⟨result, hperform⟩ :=
          State.exists_perform hended (fun limit heq => hgate ⟨limit, heq⟩) reaction
        cases hwait.symm.trans hperform

end Waiting

/-! ## What follows on a grant -/

/-- Where the program has been granted the gate, it goes on with a command, and releases the gate
with the outcome of that. -/
def Gated {β : Type} (config : Config) (program : Activity β) : Prop :=
  ∀ (deeds : List (Deed interface)) (bound : Option Nat) (next : Bool → Activity β),
    program.Leads deeds (.act (.acquire bound) next) →
      ∃ line limit, ∃ following : Outcome → Activity β,
        next true = admitted config line limit >>= fun outcome =>
          perform .release >>= fun _ => following outcome

section Gated

variable {β γ : Type} {config : Config}

/-- A program that does not wait for the gate is not granted it. -/
theorem gated_of_onlyDoes {program : Activity β}
    (h : program.OnlyDoes fun action : Action => ∀ bound, action ≠ .acquire bound) :
    Gated config program := by
  intro deeds bound next hleads
  exact absurd rfl ((hleads.onlyDoes h).2.1 bound)

theorem gated_act {action : Action} {next : action.Answer → Activity β}
    (haction : ∀ bound, action ≠ .acquire bound) (hnext : ∀ answer, Gated config (next answer)) :
    Gated config (.act action next) := by
  intro deeds bound rest hleads
  rcases Program.leads_act.mp hleads with ⟨-, heq⟩ | ⟨answer, more, -, hmore⟩
  · cases heq
    exact absurd rfl (haction bound)
  · exact hnext answer more bound rest hmore

theorem Gated.bind {program : Activity β} {next : β → Activity γ} (h : Gated config program)
    (hnext : ∀ value, Gated config (next value)) : Gated config (program >>= next) := by
  intro deeds bound rest hleads
  rcases hleads.of_bind with ⟨left, hleft, heq⟩ | ⟨first, value, more, -, -, hmore⟩
  · cases left with
    | done value => exact hnext value [] bound rest (heq ▸ .start _)
    | act action rest =>
        cases heq
        obtain ⟨line, limit, following, hgranted⟩ := h deeds bound rest hleft
        refine ⟨line, limit, fun outcome => following outcome >>= next, ?_⟩
        show rest true >>= next = _
        rw [hgranted]
        simp only [bind_assoc]
  · exact hnext value more bound rest hmore

/-- What waits for the gate goes on with a command when it is granted. -/
theorem gated_acquire {bound : Option Nat} {next : Bool → Activity β} {line : String} {limit : Nat}
    {following : Outcome → Activity β}
    (hgranted : next true = admitted config line limit >>= fun outcome =>
      perform .release >>= fun _ => following outcome)
    (hnext : ∀ granted, Gated config (next granted)) :
    Gated config (.act (.acquire bound) next) := by
  intro deeds other rest hleads
  rcases Program.leads_act.mp hleads with ⟨-, heq⟩ | ⟨granted, more, -, hmore⟩
  · cases heq
    exact ⟨line, limit, following, hgranted⟩
  · exact hnext granted more other rest hmore

/-- A command that holds the gate does not wait for it, and releases it. -/
theorem tenure_gated (line : String) (limit : Nat) (answer : Outcome → β) :
    Gated config (admitted config line limit >>= fun outcome =>
      perform .release >>= fun _ => pure (answer outcome)) := by
  have hadmitted : (admitted config line limit).OnlyDoes
      fun action : Action => ∀ bound, action ≠ .acquire bound := by
    have hexchanges : (admitted config line limit).OnlyDoes fun action : Action =>
        action.Exchanges (line = ·) ∨ action = .claimTarget := admitted_exchanges rfl config limit
    refine hexchanges.mono ?_
    rintro action haction bound rfl
    exact haction.elim id nofun
  exact gated_of_onlyDoes (hadmitted.bind fun _ => ⟨nofun, fun _ => trivial⟩)

theorem runCommand_gated (line : String) (limit : Nat) :
    Gated config (runCommand config line limit) :=
  gated_acquire rfl fun _ => tenure_gated line limit id

theorem tryRunCommand_gated (line : String) (limit : Nat) :
    Gated config (tryRunCommand config line limit) := by
  refine gated_acquire rfl fun granted => ?_
  cases granted with
  | true => exact tenure_gated line limit some
  | false => exact gated_of_onlyDoes trivial

theorem Assembled.gated {taken : Outcome → Prop} {ends : β → Prop} {program : Activity β}
    (h : Assembled config taken ends program) (htaken : ∀ outcome, taken outcome) :
    Gated config program := by
  induction h with
  | done => exact gated_of_onlyDoes trivial
  | act haction _ ih =>
      refine gated_act ?_ ih
      rintro bound rfl
      exact haction
  | command _ ih => exact (runCommand_gated _ _).bind fun outcome => ih outcome (htaken outcome)
  | tryCommand _ ih =>
      exact (tryRunCommand_gated _ _).bind fun result => ih result fun outcome _ => htaken outcome

theorem OnlyReports.gated {program : Activity β} (h : OnlyReports program) (value : γ) :
    Gated config (program >>= fun _ => pure value) := by
  refine gated_of_onlyDoes (Program.OnlyDoes.bind (h.mono ?_) fun _ => trivial)
  rintro action haction bound rfl
  exact haction

/-- Every request goes on with a command where it is granted the gate. -/
theorem Request.gated (plan : Plan) (request : Request) :
    Gated plan.config (request.program plan) := by
  cases request with
  | operation operation =>
      have hassembled : Assembled plan.config (fun _ => True) _ (operation.program plan) :=
        operation.assembled (fun _ _ => trivial) plan
      exact hassembled.gated fun _ => trivial
  | result outcome => exact (onlyReports_handleResult outcome).gated _
  | line text => exact (onlyReports_handleLine text).gated _
  | ended => exact onlyReports_finish.gated _

end Gated

/-- A caller was granted the gate for the command with this line; `following` is what it does with
the outcome once it has released the gate. -/
def Granted {host : Host} (plan : Plan) (c : Chronicle host Request Reply) (n : Nat)
    (past : History) (bound : Option Nat) (line : String) (limit : Nat)
    (following : Outcome → Activity Reply) : Prop :=
  ∃ r, c.requests[n]? = some r ∧
    (r.program plan).Leads (deedsOf (.caller n) past ++ [⟨.acquire bound, true⟩])
      (admitted plan.config line limit >>= fun outcome =>
        perform .release >>= fun _ => following outcome)

section Runs

variable {host : Host} {plan : Plan} {c : Chronicle host Request Reply} {n : Nat}

/-- Who was granted the gate was granted it for a command, and is still on its way with it. -/
theorem Possible.exists_granted (h : Possible (Request.program plan) c) {past future : History}
    {bound : Option Nat}
    (hhistory : c.history = past ++ .did (.caller n) ⟨.acquire bound, true⟩ :: future) :
    ∃ line limit following rest, Granted plan c n past bound line limit following ∧
      c.system.callers[n]? = some rest ∧
      (admitted plan.config line limit >>= fun outcome =>
        perform .release >>= fun _ => following outcome).Leads
          (deedsOf (.caller n) future) rest := by
  have hdeeds : deedsOf (.caller n) c.history =
      deedsOf (.caller n) past ++ ⟨.acquire bound, true⟩ :: deedsOf (.caller n) future := by
    rw [hhistory, deedsOf_append, ← List.singleton_append, deedsOf_append, deedsOf_did]
    rfl
  cases hcaller : c.system.callers[n]? with
  | none =>
      have habsent : deedsOf (.caller n) c.history = [] :=
        h.accounted.absent n (List.getElem?_eq_none_iff.mp hcaller)
      rw [hdeeds] at habsent
      simp at habsent
  | some rest =>
      obtain ⟨r, hrequest, hleads⟩ := h.accounted.leads n rest hcaller
      simp only [hdeeds] at hleads
      obtain ⟨next, hgate, hrest⟩ := hleads.exists_act
      obtain ⟨line, limit, following, hgranted⟩ := r.gated plan _ bound next hgate
      rw [hgranted] at hrest
      exact ⟨line, limit, following, rest, ⟨r, hrequest, hgranted ▸ hgate.act true⟩, rfl, hrest⟩

/-- A command that was granted the gate after the end finds the session ended. -/
theorem Possible.exited_of_granted (h : Possible (Request.program plan) c) {past future : History}
    {bound : Option Nat}
    (hhistory : c.history = past ++ .did (.caller n) ⟨.acquire bound, true⟩ :: future)
    (hend : Ended past) : ∃ line limit following rest,
      Granted plan c n past bound line limit following ∧ c.system.callers[n]? = some rest ∧
      (deedsOf (.caller n) future = [] ∧
        rest = (admitted plan.config line limit >>= fun outcome =>
          perform .release >>= fun _ => following outcome) ∨
      ∃ more, deedsOf (.caller n) future = ⟨.isExited, true⟩ :: more ∧
        (perform .release >>= fun _ => following .sessionExited).Leads more rest) := by
  obtain ⟨line, limit, following, rest, hgranted, hcaller, hleads⟩ := h.exists_granted hhistory
  refine ⟨line, limit, following, rest, hgranted, hcaller, ?_⟩
  rcases Program.leads_act.mp hleads with hfresh | ⟨exited, more, hfuture, hmore⟩
  · exact .inl hfresh
  have hfirst : deedsOf (.caller n) future = [] ++ ⟨.isExited, exited⟩ :: more := hfuture
  obtain ⟨middle, look, later, rfl, hlook, -, -⟩ := exists_split_of_deedsOf hfirst
  have hsplit : c.history = (past ++ .did (.caller n) ⟨.acquire bound, true⟩ :: middle) ++
      look :: later := by simp [hhistory]
  obtain ⟨ender, hmem⟩ := hend
  have hexited := (h.answer_isExited_iff hsplit hlook).mpr ⟨ender, by simp [hmem]⟩
  cases hexited
  exact .inr ⟨more, hfuture, hmore⟩

end Runs

/-- Once a session has ended, nobody has to wait for anything but the gate.  A command that waits
returns the record that was delivered last since it armed the slot, or else the end of the session,
and leaves the slot to nobody.  A command that is about to be admitted, and a pause that waits after
an interrupt, return the end of the session and change nothing; a start that waits for output goes
on, knowing whether a line was read.  Who gives up nevertheless has waited for the gate, and a
command that is granted it after the end returns the end of the session, having only looked. -/
theorem end_releases_everyone (host : Host) (plan : Plan) (c : Chronicle host Request Reply)
    (h : Possible (Request.program plan) c) :
    (Ended c.history → ∀ n,
      (∀ ticket limit claimed next,
        c.system.callers[n]? = some (.act (.awaitResult ticket limit claimed) next) →
        ∃ armed outcome state, ArmsAt c.history n ticket armed ∧
          outcome = ((deliveries (c.history.drop (armed + 1))).getLast?).getD .sessionExited ∧
          GoesOn (Request.program plan) c n ⟨.awaitResult ticket limit claimed, outcome⟩ state
            (next outcome) ∧
          state.core.slot.armed = none ∧ state.wire = c.session.state.wire) ∧
      (∀ line limit next,
        c.system.callers[n]? = some (admitted plan.config line limit >>= next) →
        GoesOn (Request.program plan) c n ⟨.isExited, true⟩ c.session.state
          (next .sessionExited)) ∧
      (∀ interval attempts next,
        c.system.callers[n]? = some (settle interval attempts >>= next) →
        GoesOn (Request.program plan) c n ⟨.settle interval (attempts != 0), .exited⟩
          c.session.state (next .sessionExited)) ∧
      (∀ limit next, c.system.callers[n]? = some (.act (.awaitOutput limit) next) →
        ∃ heard, (heard = true ↔ Heard c.history) ∧
          GoesOn (Request.program plan) c n ⟨.awaitOutput limit, heard⟩ c.session.state
            (next heard))) ∧
    (∀ past actor deed future, c.history = past ++ .gaveUp actor deed :: future → Ended past →
      ∃ limit, deed.action = .acquire (some limit)) ∧
    (∀ n past bound (future : History),
      c.history = past ++ .did (.caller n) ⟨.acquire bound, true⟩ :: future → Ended past →
      ∃ line limit following rest, Granted plan c n past bound line limit following ∧
        c.system.callers[n]? = some rest ∧
        (deedsOf (.caller n) future = [] ∧
          rest = (admitted plan.config line limit >>= fun outcome =>
            perform .release >>= fun _ => following outcome) ∨
        ∃ more, deedsOf (.caller n) future = ⟨.isExited, true⟩ :: more ∧
          (perform .release >>= fun _ => following .sessionExited).Leads more rest)) := by
  refine ⟨fun hend n => ⟨?_, ?_, ?_, ?_⟩, ?_, ?_⟩
  · intro ticket limit claimed next hcaller
    exact h.goesOn_of_awaitResult (Request.disciplined plan) hend hcaller
  · intro line limit next hcaller
    exact h.goesOn_of_admitted hend hcaller
  · intro interval attempts next hcaller
    exact h.goesOn_of_settle hend hcaller
  · intro limit next hcaller
    exact h.goesOn_of_awaitOutput hend hcaller
  · intro past actor deed future hhistory hend
    exact h.eq_acquire_of_gaveUp hhistory hend
  · intro n past bound future hhistory hend
    exact h.exited_of_granted hhistory hend

/-- A start that waits for output, a command that waits for its result and a pause that waits after
an interrupt all go on when the debugger is gone. -/
theorem end_releases_everyone_of_three : ∃ c : Chronicle Host.blind Request Reply,
    Possible (Request.program Plan.plain) c ∧ c.session.state.wire.interrupts = 1 ∧
    (∃ rest, GoesOn (Request.program Plan.plain) c 0 ⟨.awaitOutput 5000, false⟩
      c.session.state rest) ∧
    (∃ state rest, GoesOn (Request.program Plan.plain) c 1
      ⟨.awaitResult 1 5 true, .sessionExited⟩ state rest ∧ state.core.slot.armed = none) ∧
    ∃ rest, GoesOn (Request.program Plan.plain) c 2 ⟨.settle 500 true, .exited⟩
      c.session.state rest := by
  obtain ⟨c, start, command, answer, hturns, hstart, hcommand, hpause, harms, hlast, hheard,
      hinterrupts, hend⟩ :
      ∃ (c : Chronicle Host.blind Request Reply) (start : Bool → Activity Reply)
        (command : Outcome → Activity Reply) (answer : Outcome → Activity Reply),
      Chronicle.turns? (Request.program Plan.plain) {} (List.flatten
        [[.request (.operation .startConnected)], Turn.acts 0 4,
          [.request (.operation (.command "print x" 5))], Turn.acts 1 6,
          [.request (.operation (.call .pause))], Turn.acts 2 3,
          [.request .ended], Turn.acts 3 2]) = some c ∧
      c.system.callers[0]? = some (.act (.awaitOutput Plan.plain.config.readyLimit) start) ∧
      c.system.callers[1]? = some (.act (.awaitResult 1 5 true) command) ∧
      c.system.callers[2]? = some (settle Plan.plain.config.pauseInterval 2 >>= answer) ∧
      c.history[7]? = some (.did (.caller 1) ⟨.arm, 1⟩) ∧
      deliveries (c.history.drop 8) = [] ∧ c.session.state.core.execution.heard = false ∧
      c.session.state.wire.interrupts = 1 ∧
      c.history[13]? = some (.did (.caller 3) ⟨.markExited, true⟩) :=
    ⟨_, _, _, _, rfl, rfl, rfl, rfl, rfl, rfl, rfl, rfl, rfl⟩
  have h := Possible.fresh.turns _ hturns
  have hended : Ended c.history := ⟨.caller 3, List.mem_of_getElem? hend⟩
  obtain ⟨hreleased, -, -⟩ := end_releases_everyone _ _ c h
  refine ⟨c, h, hinterrupts, ?_, ?_, ?_⟩
  · obtain ⟨-, -, -, houtput⟩ := hreleased hended 0
    obtain ⟨heard, hiff, hgoesOn⟩ := houtput _ _ hstart
    rw [← h.heard_iff, hheard] at hiff
    obtain rfl : heard = false := by simpa using hiff
    exact ⟨_, hgoesOn⟩
  · obtain ⟨hcommands, -⟩ := hreleased hended 1
    obtain ⟨armed, outcome, state, hat, houtcome, hgoesOn, hdisarmed, -⟩ :=
      hcommands _ _ _ _ hcommand
    obtain rfl := h.ticket_unique hat harms
    rw [hlast] at houtcome
    obtain rfl := houtcome
    exact ⟨state, _, hgoesOn, hdisarmed⟩
  · obtain ⟨-, -, hsettle, -⟩ := hreleased hended 2
    exact ⟨_, hsettle _ _ _ hpause⟩

end DebugBridge.Session
