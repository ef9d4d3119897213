import DebugBridge.Proofs.Session.Endings
import DebugBridge.Proofs.Session.Progress

/-!
# How a stop waits for the gate

A stop asks for the gate up to twice: for the pause of a target that executes, and for the command
to quit.  The second wait has a limit in any case.  The first is one of a pause like any other, which
asks for the gate only where commands are possible while the target executes, and then without a
limit.  So a stop is held up by a command that nobody answers exactly there, and in every other
situation comes to its end by itself.

## Strategy

Where a stop is tells what it has done so far, and only its first two steps and the pause matter
(`Stage.of_leads`).  What is left after them only waits with the limit for quitting, and such a
program needs nobody else to go on (`Stopping.endsAlone_of_timely`).

## Main statements

* `stop_held_up_by_command`: a stop may wait without a limit.
* `stop_waits_for_gate`: with which limits a stop waits, and when it needs nobody else to end.
-/

namespace DebugBridge.Session

/-! ## Programs that wait for the gate with a limit -/

/-- Whether an action, if it waits for the gate, does so up to this limit. -/
def Action.IsTimely (limit : Nat) : Action → Prop
  | acquire bound => bound = some limit
  | _ => True

/-- The program waits for the gate with this limit only. -/
abbrev Timely {β : Type} (limit : Nat) (program : Activity β) : Prop :=
  program.OnlyDoes (Action.IsTimely limit)

theorem Action.IsTimely.ne_acquire {limit : Nat} {action : Action} (h : action.IsTimely limit) :
    action ≠ .acquire none := by
  rintro rfl
  cases h

section Timely

variable {limit : Nat}

/-- A command that holds the gate does not ask for it. -/
theorem admitted_timely (config : Config) (line : String) (bound : Nat) :
    Timely limit (admitted config line bound) := by
  have hexchanges : (admitted config line bound).OnlyDoes fun action : Action =>
      action.Exchanges (line = ·) ∨ action = .claimTarget := admitted_exchanges rfl config bound
  refine hexchanges.mono ?_
  rintro action (haction | rfl)
  · cases action <;> trivial
  · trivial

theorem tryRunCommand_timely (config : Config) (line : String) :
    Timely limit (tryRunCommand config line limit) := by
  refine ⟨rfl, ?_⟩
  intro granted
  cases granted with
  | true => exact (admitted_timely config line limit).bind fun _ => ⟨trivial, fun _ => trivial⟩
  | false => trivial

theorem settle_timely (interval attempts : Nat) : Timely limit (settle interval attempts) := by
  induction attempts with
  | zero =>
      refine ⟨trivial, ?_⟩
      intro attempt
      cases attempt <;> trivial
  | succ attempts ih =>
      refine ⟨trivial, ?_⟩
      intro attempt
      cases attempt with
      | sent => exact ih
      | _ => trivial

/-- Who interrupts the target by a signal does not ask for the gate. -/
theorem interrupt_timely (config : Config) : Timely limit (interrupt config) := by
  refine ⟨trivial, ?_⟩
  intro exited
  cases exited with
  | true => trivial
  | false =>
      refine ⟨trivial, ?_⟩
      intro attempt
      cases attempt with
      | sent => exact settle_timely _ _
      | _ => trivial

theorem finish_timely : Timely limit finish := by
  refine ⟨trivial, ?_⟩
  intro ended
  cases ended with
  | true => exact ⟨trivial, fun _ => trivial⟩
  | false => trivial

end Timely

/-! ## The stages of a stop -/

/-- What a stop does after the pause. -/
def partingSteps (config : Config) : Activity Unit := do
  let _ ← tryRunCommand config "-gdb-exit" config.quitLimit
  perform .closeInput
  perform .terminate
  finish

/-- What a stop does once it has forbidden commands. -/
def closingSteps (config : Config) : Activity Unit := do
  if ← perform .isRunning then
    let _ ← pause config
    partingSteps config
  else
    partingSteps config

theorem partingSteps_timely (config : Config) : Timely config.quitLimit (partingSteps config) :=
  (tryRunCommand_timely config "-gdb-exit").bind fun _ =>
    ⟨trivial, fun _ => ⟨trivial, fun _ => finish_timely⟩⟩

theorem quit_bind_finish (config : Config) :
    (do quit config
        finish : Activity Unit) = closingSteps config := by
  rw [quit, closingSteps, bind_assoc]
  refine bind_congr ?_
  intro running
  cases running <;> simp [partingSteps]

/-- What a stop has done that is about to interrupt an executing target by a command. -/
def AtInterrupt (config : Config) (sofar : List (Deed interface)) : Prop :=
  config.asyncMode = true ∧ sofar = [⟨.disableCommands, true⟩, ⟨.isRunning, true⟩]

/-- Where a stop is that has done so much and has so much left. -/
inductive Stage (config : Config) : List (Deed interface) → Activity Unit → Prop
  | begun : Stage config [] (stop config)
  /-- it has forbidden commands, and is about to look whether the target executes -/
  | looks : Stage config [⟨.disableCommands, true⟩] (closingSteps config)
  | interrupts {sofar : List (Deed interface)} (hsofar : AtInterrupt config sofar) :
      Stage config sofar (do
        let _ ← execute config "-exec-interrupt"
        partingSteps config)
  /-- it waits for the gate with the limit for quitting only -/
  | timely {sofar : List (Deed interface)} {left : Activity Unit}
      (hleft : Timely config.quitLimit left) (hsofar : ¬ AtInterrupt config sofar) :
      Stage config sofar left

theorem Stage.of_leads {config : Config} {sofar : List (Deed interface)} {left : Activity Unit}
    (h : (stop config).Leads sofar left) : Stage config sofar left := by
  have hparting := partingSteps_timely config
  rcases Program.leads_act.mp h with ⟨rfl, rfl⟩ | ⟨allowed, more, rfl, hmore⟩
  · exact .begun
  cases allowed with
  | false => exact .timely (hmore.onlyDoes finish_timely).2 (by simp [AtInterrupt])
  | true =>
      have hclosing : (closingSteps config).Leads more left := quit_bind_finish config ▸ hmore
      rcases Program.leads_act.mp hclosing with ⟨rfl, rfl⟩ | ⟨running, later, rfl, hlater⟩
      · exact .looks
      cases running with
      | false => exact .timely (hlater.onlyDoes hparting).2 (by simp [AtInterrupt])
      | true =>
          have hpaused : (do let _ ← pause config
                             partingSteps config : Activity Unit).Leads later left := hlater
          unfold pause at hpaused
          split at hpaused
          · rename_i hasync
            rcases Program.leads_act.mp hpaused with ⟨rfl, rfl⟩ | ⟨granted, last, rfl, hlast⟩
            · exact .interrupts ⟨hasync, rfl⟩
            · have hrest : Timely config.quitLimit ((do
                  let outcome ← admitted config (commandLine "-exec-interrupt" [])
                    config.commandLimit
                  perform .release
                  return outcome) >>= fun _ => partingSteps config) :=
                Program.OnlyDoes.bind ((admitted_timely config _ _).bind fun _ =>
                  ⟨trivial, fun _ => trivial⟩) fun _ => hparting
              exact .timely (hlast.onlyDoes hrest).2 (by simp [AtInterrupt])
          · rename_i hsync
            have hrest : Timely config.quitLimit
                (interrupt config >>= fun _ => partingSteps config) :=
              (interrupt_timely config).bind fun _ => hparting
            exact .timely (hpaused.onlyDoes hrest).2 fun hsofar => hsync hsofar.1

/-- A stop asks for the gate with the limit for quitting, or without one where it is about to
interrupt an executing target by a command. -/
theorem acquire_of_leads {config : Config} {sofar : List (Deed interface)}
    {limit : Option Nat} {rest : Bool → Activity Unit}
    (h : (stop config).Leads sofar (.act (.acquire limit) rest)) :
    limit = some config.quitLimit ∨ limit = none ∧ AtInterrupt config sofar := by
  cases Stage.of_leads h with
  | interrupts hsofar => exact .inr ⟨rfl, hsofar⟩
  | timely hleft => exact .inl hleft.1

/-- Where a stop is about to interrupt an executing target by a command, it asks for the gate
without a limit. -/
theorem exists_acquire_of_atInterrupt {config : Config} {sofar : List (Deed interface)}
    {left : Activity Unit} (h : (stop config).Leads sofar left)
    (hsofar : AtInterrupt config sofar) : ∃ rest, left = .act (.acquire none) rest := by
  cases Stage.of_leads h with
  | interrupts => exact ⟨_, rfl⟩
  | timely _ hother => exact absurd hsofar hother
  | begun | looks => simp [AtInterrupt] at hsofar

/-- Once it has looked whether the target executes, a stop waits with the limit for quitting only,
unless it is about to interrupt the target by a command. -/
theorem timely_of_leads {config : Config} {sofar : List (Deed interface)} {left : Activity Unit}
    (h : (stop config).Leads sofar left) (hlooked : 2 ≤ sofar.length)
    (hsofar : ¬ AtInterrupt config sofar) : Timely config.quitLimit left := by
  cases Stage.of_leads h with
  | begun | looks => simp at hlooked
  | interrupts hother => exact absurd hother hsofar
  | timely hleft => exact hleft

/-! ## Stops under way -/

section Runs

variable {host : Host} {ρ α : Type} {program : ρ → Activity α} {c : Chronicle host ρ α} {n : Nat}
  {config : Config} {sofar : List (Deed interface)} {left : Activity Unit}

/-- A caller is in a stop: it has come so far with it, and this is left of it, before whatever the
caller does afterwards. -/
structure Stopping (config : Config) (c : Chronicle host ρ α) (n : Nat)
    (sofar : List (Deed interface)) (left : Activity Unit) : Prop where
  leads : (stop config).Leads sofar left
  deeds : ∃ before, deedsOf (.caller n) c.history = before ++ sofar
  caller : ∃ next : Unit → Activity α, c.system.callers[n]? = some (left >>= next)

/-- A caller can come to the end of its stop by turns of its own. -/
def EndsAlone (program : ρ → Activity α) (config : Config) (c : Chronicle host ρ α) (n : Nat)
    (sofar : List (Deed interface)) : Prop :=
  ∃ turns later more, (∀ turn ∈ turns, turn.IsOf n) ∧ c.turns? program turns = some later ∧
    Stopping config later n (sofar ++ more) (.done ())

theorem EndsAlone.of_turn {turn : Turn ρ} {later : Chronicle host ρ α} {deed : Deed interface}
    (h : EndsAlone program config later n (sofar ++ [deed]))
    (hlater : c.turn? program turn = some later) (hturn : turn.IsOf n) :
    EndsAlone program config c n sofar := by
  obtain ⟨turns, final, more, hturns, hfinal, hend⟩ := h
  refine ⟨turn :: turns, final, deed :: more, List.forall_mem_cons.mpr ⟨hturn, hturns⟩, ?_, ?_⟩
  · exact (foldlM_cons_of_eq_some hlater).trans hfinal
  · simpa using hend

section Steps

variable (program) {action : Action} {rest : action.Answer → Activity Unit} {state : State}
  {answer : action.Answer}

/-- A stop goes on with what it has to do. -/
theorem Stopping.act (h : Stopping config c n sofar (.act action rest))
    (hperform : c.session.state.perform none action = some (state, answer)) :
    ∃ later, c.turn? program (.act n none) = some later ∧ later.session.state = state ∧
      Stopping config later n (sofar ++ [⟨action, answer⟩]) (rest answer) := by
  obtain ⟨before, hbefore⟩ := h.deeds
  obtain ⟨next, hcaller⟩ := h.caller
  refine ⟨_, Chronicle.turn?_act hcaller (withState_of_eq_some hperform), rfl, h.leads.act answer,
    ⟨before, ?_⟩, next, ?_⟩
  · simp [hbefore]
  · exact List.getElem?_set_self (List.getElem?_eq_some_iff.mp hcaller).1

/-- A stop gives up waiting. -/
theorem Stopping.expire (h : Stopping config c n sofar (.act action rest))
    (hwait : c.session.state.perform none action = none)
    (hgiveUp : c.session.state.giveUp none action = some (state, answer)) :
    ∃ later, c.turn? program (.expire n none) = some later ∧
      Stopping config later n (sofar ++ [⟨action, answer⟩]) (rest answer) := by
  obtain ⟨before, hbefore⟩ := h.deeds
  obtain ⟨next, hcaller⟩ := h.caller
  refine ⟨_, Chronicle.turn?_expire hcaller (Option.map_eq_none_iff.mpr hwait)
    (withState_of_eq_some hgiveUp), h.leads.act answer, ⟨before, ?_⟩, next, ?_⟩
  · simp [hbefore]
  · exact List.getElem?_set_self (List.getElem?_eq_some_iff.mp hcaller).1

/-- What a stop has to do next can be done or given up, unless it is to wait without a limit. -/
theorem Stopping.exists_turn (h : Stopping config c n sofar (.act action rest))
    (haction : action ≠ .acquire none) : ∃ turn later answer, turn.IsOf n ∧
      c.turn? program turn = some later ∧
      Stopping config later n (sofar ++ [⟨action, answer⟩]) (rest answer) := by
  rcases c.session.state.can_conclude fun heq => absurd heq haction
      with ⟨state, answer, hperform⟩ | ⟨hwait, state, answer, hgiveUp⟩
  · obtain ⟨later, hlater, -, hstop⟩ := h.act program hperform
    exact ⟨.act n none, later, answer, rfl, hlater, hstop⟩
  · obtain ⟨later, hlater, hstop⟩ := h.expire program hwait hgiveUp
    exact ⟨.expire n none, later, answer, rfl, hlater, hstop⟩

end Steps

/-- A stop that only waits with a limit needs nobody else to come to its end. -/
theorem Stopping.endsAlone_of_timely (h : Stopping config c n sofar left)
    (htimely : Timely config.quitLimit left) : EndsAlone program config c n sofar := by
  induction left generalizing c sofar with
  | done value => exact ⟨[], c, [], nofun, rfl, by simpa using h⟩
  | act action rest ih =>
      obtain ⟨turn, later, answer, hturn, hlater, hstop⟩ :=
        h.exists_turn program htimely.1.ne_acquire
      exact (ih answer hstop (htimely.2 answer)).of_turn hlater hturn

/-- A stop ends alone if it does so once it has done what it can do now. -/
theorem Stopping.endsAlone_of_act {action : Action} {rest : action.Answer → Activity Unit}
    {state : State} {answer : action.Answer} (h : Stopping config c n sofar (.act action rest))
    (hperform : c.session.state.perform none action = some (state, answer))
    (hrest : ∀ later : Chronicle host ρ α, later.session.state = state →
      Stopping config later n (sofar ++ [⟨action, answer⟩]) (rest answer) →
      EndsAlone program config later n (sofar ++ [⟨action, answer⟩])) :
    EndsAlone program config c n sofar := by
  obtain ⟨later, hlater, hstate, hstop⟩ := h.act program hperform
  exact (hrest later hstate hstop).of_turn hlater rfl

/-- A stop is held up: somebody holds the gate, and the stop waits for it without a limit or will do
so when it goes on. -/
def HeldUp (config : Config) (c : Chronicle host ρ α) (sofar : List (Deed interface)) : Prop :=
  config.asyncMode = true ∧ c.session.state.core.gateHeld = true ∧
    (AtInterrupt config sofar ∨ c.session.state.core.isRunning = true ∧
      (sofar = [⟨.disableCommands, true⟩] ∨ sofar = [] ∧ c.session.state.commanded = true))

/-- With the gate free a stop takes it for the interrupt, and needs nobody else from then on. -/
theorem Stopping.endsAlone_of_atInterrupt (h : Stopping config c n sofar left)
    (hsofar : AtInterrupt config sofar) (hgate : c.session.state.core.gateHeld = false) :
    EndsAlone program config c n sofar := by
  obtain ⟨rest, rfl⟩ := exists_acquire_of_atInterrupt h.leads hsofar
  obtain ⟨state, hacquire⟩ := State.exists_acquire none hgate
  refine h.endsAlone_of_act hacquire ?_
  intro later hstate hstop
  obtain ⟨-, rfl⟩ := hsofar
  exact hstop.endsAlone_of_timely (timely_of_leads hstop.leads (by simp) (by simp [AtInterrupt]))

/-- What a stop finds when it looks whether the target executes decides how it goes on. -/
theorem Stopping.endsAlone_of_looks
    (h : Stopping config c n [⟨.disableCommands, true⟩] (closingSteps config))
    (hfree : ¬ HeldUp config c [⟨.disableCommands, true⟩]) :
    EndsAlone program config c n [⟨.disableCommands, true⟩] := by
  refine h.endsAlone_of_act rfl ?_
  intro later hstate hstop
  by_cases hsofar : AtInterrupt config
      ([⟨.disableCommands, true⟩] ++ [⟨.isRunning, c.session.state.core.isRunning⟩])
  · have hrunning : c.session.state.core.isRunning = true := by
      simpa [AtInterrupt] using hsofar.2
    refine hstop.endsAlone_of_atInterrupt hsofar (Bool.eq_false_iff.mpr fun hgate => ?_)
    rw [hstate] at hgate
    exact hfree ⟨hsofar.1, hgate, .inr ⟨hrunning, .inl rfl⟩⟩
  · exact hstop.endsAlone_of_timely (timely_of_leads hstop.leads (by simp) hsofar)

/-- A stop that is not held up needs nobody else to come to its end. -/
theorem Stopping.endsAlone (h : Stopping config c n sofar left) (hfree : ¬ HeldUp config c sofar) :
    EndsAlone program config c n sofar := by
  cases Stage.of_leads h.leads with
  | timely hleft => exact h.endsAlone_of_timely hleft
  | interrupts hsofar =>
      refine h.endsAlone_of_atInterrupt hsofar (Bool.eq_false_iff.mpr fun hgate => ?_)
      exact hfree ⟨hsofar.1, hgate, .inl hsofar⟩
  | looks => exact h.endsAlone_of_looks hfree
  | begun =>
      refine h.endsAlone_of_act rfl ?_
      intro later hstate hstop
      -- commands are forbidden now, and whether they were possible tells what follows
      cases hallowed : c.session.state.commanded with
      | false =>
          rw [hallowed] at hstop
          exact hstop.endsAlone_of_timely finish_timely
      | true =>
          rw [hallowed] at hstop
          have hcloses : Stopping config later n [⟨.disableCommands, true⟩] (closingSteps config) :=
            quit_bind_finish config ▸ hstop
          refine hcloses.endsAlone_of_looks ?_
          rintro ⟨hasync, hgate, hsofar | ⟨hrunning, -⟩⟩
          · simp [AtInterrupt] at hsofar
          · rw [hstate] at hgate hrunning
            exact hfree ⟨hasync, hgate, .inr ⟨hrunning, .inr ⟨rfl, hallowed⟩⟩⟩

/-- A stop that waits with a limit gives up when the gate stays held. -/
theorem Stopping.gives_up {limit : Nat} {rest : Bool → Activity Unit}
    (h : Stopping config c n sofar (.act (.acquire (some limit)) rest))
    (hgate : c.session.state.core.gateHeld = true) :
    ∃ later, c.turn? program (.expire n none) = some later ∧
      Stopping config later n (sofar ++ [⟨.acquire (some limit), false⟩]) (rest false) := by
  have hwait : c.session.state.perform none (.acquire (some limit)) = none := by
    simp [State.perform, Core.acquire?, hgate]
  exact h.expire program hwait rfl

/-- A stop that waits without a limit cannot go on while the gate is held. -/
theorem Stopping.blocked {rest : Bool → Activity Unit}
    (h : Stopping config c n sofar (.act (.acquire none) rest))
    (hgate : c.session.state.core.gateHeld = true) {turn : Turn ρ} (hturn : turn.IsOf n) :
    c.turn? program turn = none := by
  obtain ⟨next, hcaller⟩ := h.caller
  have hnext : c.system.next? n = some ⟨.acquire none, fun granted => rest granted >>= next⟩ := by
    simp [System.next?, hcaller]
  cases turn with
  | request | happen => exact absurd hturn id
  | act caller reaction | expire caller reaction =>
      obtain rfl : caller = n := hturn
      simp [DebugBridge.Chronicle.turn?, Turn.move, System.step?, hnext, Session.withState,
        State.perform, State.giveUp, Core.acquire?, hgate]

end Runs

/-! ## Requests -/

/-- A caller that has asked for a stop is in it until it has got its answer. -/
theorem Possible.stopping {host : Host} {plan : Plan} {c : Chronicle host Request Reply} {n : Nat}
    (h : Possible (Request.program plan) c) (hrequest : c.requests[n]? = some (.operation .stop)) :
    c.system.value? n = some .noted ∨
      ∃ left, Stopping plan.config c n (deedsOf (.caller n) c.history) left := by
  obtain ⟨rest, hcaller, hleads⟩ := h.leads_of_request hrequest
  rcases hleads.of_bind with ⟨left, hleft, rfl⟩ | ⟨first, value, more, -, -, hdone⟩
  · exact .inr ⟨left, hleft, ⟨[], rfl⟩, _, hcaller⟩
  · obtain ⟨-, rfl⟩ := Program.leads_done.mp hdone
    exact .inl (System.value?_eq_some_iff.mpr hcaller)

/-- A stop may wait for the gate without a limit while another caller holds it. -/
theorem stop_held_up_by_command :
    ¬ ∀ (host : Host) (plan : Plan) (c : Chronicle host Request Reply),
      Possible (Request.program plan) c →
      ∀ (n : Nat) (limit : Option Nat) (rest : Bool → Activity Reply),
        c.requests[n]? = some (.operation .stop) →
        c.system.callers[n]? = some (.act (.acquire limit) rest) →
        c.session.state.core.gateHeld = true → limit.isSome = true := by
  intro hclaim
  obtain ⟨c, rest, hturns, hrequest, hcaller, hgate⟩ :
      ∃ (c : Chronicle Host.blind Request Reply) (rest : Bool → Activity Reply),
        Chronicle.turns?
          (Request.program ⟨{ Plan.plain.config with asyncMode := true }, .local⟩) {} (List.flatten
            [[.request (.operation .startConnected)], Turn.acts 0 4, [.request (.line "*running")],
              Turn.acts 1 4, [.request (.operation (.command "print x" 5))], Turn.acts 2 5,
              [.request (.operation .stop)], Turn.acts 3 2]) = some c ∧
        c.requests[3]? = some (Request.operation .stop) ∧
        c.system.callers[3]? = some (.act (.acquire none) rest) ∧
        c.session.state.core.gateHeld = true := ⟨_, _, rfl, rfl, rfl, rfl⟩
  have hlimit := hclaim _ _ c (Possible.fresh.turns _ hturns) 3 none rest hrequest hcaller hgate
  cases hlimit

/-- A caller that has asked for a stop is in it until it has got its answer.  A stop waits for the
gate with the limit for quitting, and gives up when the gate stays held; only where it is about to
interrupt an executing target by a command does it wait without a limit, and cannot go on while the
gate is held.  In every situation but this one a stop, whoever has asked for it, can come to its end
by turns of its own, whatever the caller does that holds the gate. -/
theorem stop_waits_for_gate (host : Host) (plan : Plan) (c : Chronicle host Request Reply)
    (h : Possible (Request.program plan) c) (n : Nat) :
    (c.requests[n]? = some (.operation .stop) → c.system.value? n = some .noted ∨
      ∃ left, Stopping plan.config c n (deedsOf (.caller n) c.history) left) ∧
    ∀ sofar left, Stopping plan.config c n sofar left →
      (∀ limit rest, left = .act (.acquire limit) rest →
        limit = some plan.config.quitLimit ∧ (c.session.state.core.gateHeld = true →
          ∃ later, c.turn? (Request.program plan) (.expire n none) = some later ∧
            Stopping plan.config later n (sofar ++ [⟨.acquire limit, false⟩]) (rest false)) ∨
        limit = none ∧ AtInterrupt plan.config sofar ∧ (c.session.state.core.gateHeld = true →
          ∀ turn : Turn Request, turn.IsOf n → c.turn? (Request.program plan) turn = none)) ∧
      (¬ HeldUp plan.config c sofar → EndsAlone (Request.program plan) plan.config c n sofar) := by
  refine ⟨h.stopping, ?_⟩
  intro sofar left hstop
  refine ⟨?_, hstop.endsAlone⟩
  rintro limit rest rfl
  rcases acquire_of_leads hstop.leads with rfl | ⟨rfl, hsofar⟩
  · exact .inl ⟨rfl, hstop.gives_up⟩
  · exact .inr ⟨rfl, hsofar, fun hgate turn => hstop.blocked hgate⟩

/-- Where commands and execution exclude each other, a stop ends by itself although a command is
waiting for its answer. -/
theorem stop_waits_for_gate_of_busy : ∃ c : Chronicle Host.blind Request Reply,
    Possible (Request.program Plan.plain) c ∧ c.session.state.core.gateHeld = true ∧
      c.session.state.core.isRunning = true ∧
      EndsAlone (Request.program Plan.plain) Plan.plain.config c 2 [] := by
  obtain ⟨c, hturns, hcaller, hdeeds, hgate, hrunning⟩ : ∃ c : Chronicle Host.blind Request Reply,
      Chronicle.turns? (Request.program Plan.plain) {} (List.flatten
        [[.request (.operation .startConnected)], Turn.acts 0 4,
          [.request (.operation (.command "print x" 5))], Turn.acts 1 6,
          [.request (.operation .stop)]]) = some c ∧
      c.system.callers[2]? = some (do
        stop Plan.plain.config
        return .noted) ∧
      deedsOf (.caller 2) c.history = [] ∧ c.session.state.core.gateHeld = true ∧
      c.session.state.core.isRunning = true := ⟨_, rfl, rfl, rfl, rfl, rfl⟩
  have h := Possible.fresh.turns _ hturns
  have hstop : Stopping Plan.plain.config c 2 [] (stop Plan.plain.config) :=
    ⟨.start _, ⟨[], hdeeds⟩, _, hcaller⟩
  refine ⟨c, h, hgate, hrunning, ?_⟩
  exact ((stop_waits_for_gate _ _ c h 2).2 _ _ hstop).2 fun hheld => absurd hheld.1 (by decide)

end DebugBridge.Session
