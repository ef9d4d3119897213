import DebugBridge.Proofs.Run
import DebugBridge.Session.Parties

/-!
# Runs of a session

A run begins with a fresh session.  What is noted in its history is what callers and the parties in
the background do, and what the debugger prints.

## Main statements

* `Chronicle.change_of_turn?`: all that a turn can do to a session.
* `Possible.accounted`: what a caller has done so far leads from its program to what is left of it.
* `Possible.backgroundReports`: the parties in the background only report.
-/

namespace DebugBridge.Session

/-! ## Histories -/

/-- Who does something to a session. -/
inductive Actor
  | caller (number : Nat)
  | reader (channel : Channel)
  | watcher
deriving DecidableEq

/-- Something that the debugger has printed. -/
structure Printing where
  channel : Channel
  chunk : Chunk

/-- Something that happened to a session. -/
abbrev Occurrence := DebugBridge.Occurrence interface Actor Printing

/-- The debugger printed. -/
@[match_pattern]
abbrev Occurrence.printed (channel : Channel) (chunk : Chunk) : Occurrence :=
  .happened ⟨channel, chunk⟩

/-- What happened to a session, first to last. -/
abbrev History := List Occurrence

/-- What is noted when something happens to a session without a caller. -/
def note (session : Session) : Happening → History
  | .advance (.reader channel) =>
      (((session.readerTask channel).deed? (session.state.perform none)).map
        (.did (.reader channel))).toList
  | .advance .watcher =>
      ((session.watcherTask.deed? (session.state.perform none)).map (.did .watcher)).toList
  | .print channel chunk => [.printed channel chunk]
  | .advance .router | .close _ | .reportGone => []

theorem deedsOf_note (session : Session) (happening : Happening) (n : Nat) :
    deedsOf (.caller n) (note session happening) = [] := by
  have hother {actor : Actor} (hne : actor ≠ .caller n) (deed? : Option (Deed interface)) :
      deedsOf (.caller n) ((deed?.map (.did actor)).toList : History) = [] := by
    cases deed? with
    | none => rfl
    | some deed => exact deedsOf_did_ne hne deed
  cases happening with
  | advance party =>
      cases party with
      | reader channel => exact hother (by simp) _
      | watcher => exact hother (by simp) _
      | router => rfl
  | print | close | reportGone => rfl

/-- The annals of a session. -/
abbrev annals (host : Host) : Annals (arena host) Actor Printing where
  caller := .caller
  note := note
  caller_inj := Actor.caller.inj
  deedsOf_note := deedsOf_note

/-! ## Turns -/

/-- What can come next in a run. -/
abbrev Turn (ρ : Type) := DebugBridge.Turn ρ Happening

variable {host : Host} {ρ α : Type}

/-- What has come of a run. -/
abbrev Chronicle (host : Host) (ρ α : Type) :=
  DebugBridge.Chronicle (arena host) Actor Printing ρ α

namespace Chronicle

/-- Nothing has come of a run of a fresh session yet. -/
instance : EmptyCollection (Chronicle host ρ α) :=
  ⟨{ system := ⟨({} : Session), []⟩ }⟩

/-- The session. -/
abbrev session (c : Chronicle host ρ α) : Session :=
  c.system.state

/-- The chronicle after one more turn, if that is possible. -/
abbrev turn? (program : ρ → Activity α) (c : Chronicle host ρ α) (turn : Turn ρ) :
    Option (Chronicle host ρ α) :=
  DebugBridge.Chronicle.turn? (annals host) program c turn

/-- The chronicle after some more turns, if they are possible. -/
abbrev turns? (program : ρ → Activity α) (c : Chronicle host ρ α) (turns : List (Turn ρ)) :
    Option (Chronicle host ρ α) :=
  DebugBridge.Chronicle.turns? (annals host) program c turns

end Chronicle

/-- What can come of a run from a fresh session, when requests are carried out by their
programs. -/
inductive Possible (program : ρ → Activity α) : Chronicle host ρ α → Prop
  | fresh : Possible program { system := ⟨({} : Session), []⟩ }
  | turn {c next : Chronicle host ρ α} (h : Possible program c) (turn : Turn ρ)
      (hturn : c.turn? program turn = some next) : Possible program next

/-- What holds of a chronicle, and still does after each of some turns, holds after them. -/
theorem Possible.preserved {program : ρ → Activity α} {c next : Chronicle host ρ α}
    (h : Possible program c) {turns : List (Turn ρ)} (hturns : c.turns? program turns = some next)
    (holds : Chronicle host ρ α → Prop) (hholds : holds c)
    (hstep : ∀ {c next : Chronicle host ρ α} {turn : Turn ρ}, turn ∈ turns → Possible program c →
      c.turn? program turn = some next → holds c → holds next) :
    Possible program next ∧ holds next :=
  holds_of_foldlM hturns (fun c => Possible program c ∧ holds c) ⟨h, hholds⟩
    fun hmem hturn hnow => ⟨hnow.1.turn _ hturn, hstep hmem hnow.1 hturn hnow.2⟩

theorem Possible.turns {program : ρ → Activity α} {c next : Chronicle host ρ α}
    (h : Possible program c) (turns : List (Turn ρ)) (hturns : c.turns? program turns = some next) :
    Possible program next :=
  (h.preserved hturns (fun _ => True) trivial fun _ _ _ _ => trivial).1

/-! ## What a turn can do -/

/-- A change of a chronicle by one turn. -/
inductive Change (program : ρ → Activity α) (c : Chronicle host ρ α) : Chronicle host ρ α → Prop
  | request (r : ρ) : Change program c
      { c with
        requests := c.requests ++ [r]
        system := ⟨c.session, c.system.callers ++ [program r]⟩ }
  | act {caller : Nat} {reaction : Option Fault} {action : Action}
      {rest : action.Answer → Activity α} {state : State} {answer : action.Answer}
      (hcaller : c.system.callers[caller]? = some (.act action rest))
      (hperform : c.session.state.perform reaction action = some (state, answer)) :
      Change program c
        { c with
          system := ⟨{ c.session with state }, c.system.callers.set caller (rest answer)⟩
          history := c.history ++ [.did (.caller caller) ⟨action, answer⟩] }
  | expire {caller : Nat} {reaction : Option Fault} {action : Action}
      {rest : action.Answer → Activity α} {state : State} {answer : action.Answer}
      (hcaller : c.system.callers[caller]? = some (.act action rest))
      (hwait : c.session.state.perform reaction action = none)
      (hgiveUp : c.session.state.giveUp reaction action = some (state, answer)) :
      Change program c
        { c with
          system := ⟨{ c.session with state }, c.system.callers.set caller (rest answer)⟩
          history := c.history ++ [.gaveUp (.caller caller) ⟨action, answer⟩] }
  | reader {channel : Channel} {action : Action} {rest : action.Answer → Activity Unit}
      {state : State} {answer : action.Answer}
      (htask : c.session.readerTask channel = .act action rest)
      (hperform : c.session.state.perform none action = some (state, answer)) :
      Change program c
        { c with
          system := ⟨c.session.withReader channel state (rest answer), c.system.callers⟩
          history := c.history ++ [.did (.reader channel) ⟨action, answer⟩] }
  | read {channel : Channel} {stream : Stream} {reading : Stream.Reading}
      (htask : c.session.readerTask channel = .done ())
      (hread : (c.session.state.wire.stream channel).read? = some (stream, reading))
      (hconnected : c.session.state.wire.connected = true) :
      Change program c
        { c with
          system :=
            ⟨c.session.withReader channel
              { c.session.state with wire := c.session.state.wire.setStream channel stream }
              (handleReading channel reading), c.system.callers⟩ }
  | watcher {action : Action} {rest : action.Answer → Activity Unit} {state : State}
      {answer : action.Answer} (htask : c.session.watcherTask = .act action rest)
      (hperform : c.session.state.perform none action = some (state, answer)) :
      Change program c
        { c with
          system := ⟨{ c.session with state, watcherTask := rest answer }, c.system.callers⟩
          history := c.history ++ [.did .watcher ⟨action, answer⟩] }
  | router (router : Router) : Change program c
      { c with
        system :=
          ⟨{ c.session with state := { c.session.state with router } }, c.system.callers⟩ }
  | print (channel : Channel) (chunk : Chunk) : Change program c
      { c with
        system := ⟨c.session.print channel chunk, c.system.callers⟩
        history := c.history ++ [Occurrence.printed channel chunk] }
  | close (channel : Channel) : Change program c
      { c with system := ⟨c.session.close channel, c.system.callers⟩ }
  | reportGone : Change program c
      { c with system := ⟨c.session.reportGone, c.system.callers⟩ }

theorem withState_eq_some {β : Type} {session next : Session} {result : Option (State × β)}
    {answer : β} (h : session.withState result = some (next, answer)) :
    ∃ state, result = some (state, answer) ∧ next = { session with state } := by
  obtain ⟨⟨state, other⟩, hresult, hnext⟩ := Option.map_eq_some_iff.mp h
  cases hnext
  exact ⟨state, hresult, rfl⟩

theorem withState_of_eq_some {β : Type} {session : Session} {result : Option (State × β)}
    {state : State} {answer : β} (h : result = some (state, answer)) :
    session.withState result = some ({ session with state }, answer) := by
  rw [h]
  rfl

/-- What a party in the background does when it goes on with its task. -/
theorem step?_eq_some {β : Type} {state next : State} {task rest : Activity β}
    (h : state.step? task = some (next, rest)) :
    ∃ (action : Action) (following : action.Answer → Activity β) (answer : action.Answer),
      task = .act action following ∧ state.perform none action = some (next, answer) ∧
      rest = following answer := by
  cases task with
  | done value => cases h
  | act action following =>
      obtain ⟨⟨state, answer⟩, hperform, hresult⟩ := Option.map_eq_some_iff.mp h
      cases hresult
      exact ⟨action, following, answer, rfl, hperform, rfl⟩

/-- A reader goes on with its line or reads the next one. -/
theorem advanceReader?_eq_some {channel : Channel} {session next : Session}
    (h : session.advanceReader? channel = some next) :
    (∃ state task, session.state.step? (session.readerTask channel) = some (state, task) ∧
      next = session.withReader channel state task) ∨
    ∃ stream reading, session.readerTask channel = .done () ∧
      (session.state.wire.stream channel).read? = some (stream, reading) ∧
      session.state.wire.connected = true ∧
      next = session.withReader channel
        { session.state with wire := session.state.wire.setStream channel stream }
        (handleReading channel reading) := by
  unfold Session.advanceReader? at h
  cases htask : session.readerTask channel with
  | act action rest =>
      simp only [htask] at h
      obtain ⟨⟨state, task⟩, hstep, hnext⟩ := Option.map_eq_some_iff.mp h
      exact .inl ⟨state, task, hstep, hnext.symm⟩
  | done value =>
      simp only [htask] at h
      split at h
      · rename_i hconnected
        obtain ⟨⟨stream, reading⟩, hread, hnext⟩ := Option.map_eq_some_iff.mp h
        exact .inr ⟨stream, reading, rfl, hread, hconnected, hnext.symm⟩
      · cases h

namespace Chronicle

variable {program : ρ → Activity α} {c next : Chronicle host ρ α}

private theorem change_of_advanceReader {channel : Channel}
    (h : c.turn? program (.happen (.advance (.reader channel))) = some next) :
    Change program c next := by
  obtain ⟨session, hadvance, rfl⟩ := Chronicle.happen_of_turn? h
  rcases advanceReader?_eq_some hadvance
      with ⟨state, task, hgoOn, rfl⟩ | ⟨stream, reading, htask, hread, hconnected, rfl⟩
  -- it goes on with its line
  · obtain ⟨action, rest, answer, htask, hperform, rfl⟩ := step?_eq_some hgoOn
    simpa [note, htask, Program.deed?, hperform] using Change.reader htask hperform
  -- it reads the next line
  · simpa [note, htask, Program.deed?] using Change.read htask hread hconnected

private theorem change_of_advanceWatcher
    (h : c.turn? program (.happen (.advance .watcher)) = some next) : Change program c next := by
  obtain ⟨session, hadvance, rfl⟩ := Chronicle.happen_of_turn? h
  obtain ⟨⟨state, task⟩, hgoOn, rfl⟩ := Option.map_eq_some_iff.mp hadvance
  obtain ⟨action, rest, answer, htask, hperform, rfl⟩ := step?_eq_some hgoOn
  simpa [note, htask, Program.deed?, hperform] using Change.watcher htask hperform

private theorem change_of_advanceRouter
    (h : c.turn? program (.happen (.advance .router)) = some next) : Change program c next := by
  obtain ⟨session, hadvance, rfl⟩ := Chronicle.happen_of_turn? h
  obtain ⟨router, hrouter, rfl⟩ := Option.map_eq_some_iff.mp hadvance
  simpa [note] using Change.router router

/-- A turn changes a chronicle in one of the ways of `Change`. -/
theorem change_of_turn? {turn : Turn ρ} (h : c.turn? program turn = some next) :
    Change program c next := by
  cases turn with
  | request r =>
      cases h
      simpa [DebugBridge.Turn.request?, DebugBridge.Chronicle.occurrences] using Change.request r
  | act caller reaction =>
      obtain ⟨action, rest, session, answer, hcaller, hresult, rfl⟩ := Chronicle.act_of_turn? h
      obtain ⟨state, hperform, rfl⟩ := withState_eq_some hresult
      exact .act hcaller hperform
  | expire caller reaction =>
      obtain ⟨action, rest, session, answer, hcaller, hidle, hresult, rfl⟩ :=
        Chronicle.expire_of_turn? h
      obtain ⟨state, hgiveUp, rfl⟩ := withState_eq_some hresult
      exact .expire hcaller (Option.map_eq_none_iff.mp hidle) hgiveUp
  | happen happening =>
      cases happening with
      | advance party =>
          cases party with
          | reader channel => exact change_of_advanceReader h
          | watcher => exact change_of_advanceWatcher h
          | router => exact change_of_advanceRouter h
      | print channel chunk =>
          obtain ⟨session, hprint, rfl⟩ := Chronicle.happen_of_turn? h
          cases hprint
          exact .print channel chunk
      | close channel =>
          obtain ⟨session, hclose, rfl⟩ := Chronicle.happen_of_turn? h
          cases hclose
          simpa [note] using Change.close channel
      | reportGone =>
          obtain ⟨session, hreport, rfl⟩ := Chronicle.happen_of_turn? h
          cases hreport
          simpa [note] using Change.reportGone

end Chronicle

/-! ## What has happened before -/

section Past

variable {program : ρ → Activity α} {c next : Chronicle host ρ α}

/-- What an occurrence does to the state of a session. -/
inductive Effect (state : State) : Occurrence → State → Prop
  | did {actor : Actor} {reaction : Option Fault} {action : Action} {answer : action.Answer}
      {next : State} (hperform : state.perform reaction action = some (next, answer)) :
      Effect state (.did actor ⟨action, answer⟩) next
  | gaveUp {actor : Actor} {reaction : Option Fault} {action : Action} {answer : action.Answer}
      {next : State} (hwait : state.perform reaction action = none)
      (hgiveUp : state.giveUp reaction action = some (next, answer)) :
      Effect state (.gaveUp actor ⟨action, answer⟩) next
  | printed {channel : Channel} {chunk : Chunk} {next : State}
      (hcore : next.core = state.core) : Effect state (.printed channel chunk) next

@[simp]
theorem attempt_core (reaction : Option Fault) (more : Bool) (state : State) :
    (state.attempt reaction more).1.core = state.core := by
  cases more <;> rfl

/-- What an action makes of the core, once it need not wait. -/
def Action.onCore : Action → Core → Core
  | beginStart, core => core.beginStart.1
  | finishStart, core => core.finishStart.1
  | markExited, core => core.markExited.1
  | markHeard, core => core.markHeard
  | setRunning running, core => core.setRunning running
  | applyExec record, core => core.applyExec record
  | noteResult outcome, core => core.noteResult outcome
  | deliver outcome, core => core.deliver outcome
  | acquire _, core => { core with gateHeld := true }
  | release, core => core.release
  | claimTarget, core => core.claimTarget.1
  | arm, core => core.arm.1
  | disarm, core => core.disarm
  | awaitResult ticket _ _, core => ((core.collect? ticket).map Prod.fst).getD core
  | _, core => core

theorem perform_core {reaction : Option Fault} {action : Action} {state next : State}
    {answer : action.Answer} (h : state.perform reaction action = some (next, answer)) :
    next.core = action.onCore state.core := by
  cases action with
  | acquire limit =>
      obtain ⟨core, hacquire, hresult⟩ := Option.map_eq_some_iff.mp h
      cases hresult
      unfold Core.acquire? at hacquire
      split at hacquire <;> cases hacquire
      rfl
  | awaitResult ticket limit claimed =>
      obtain ⟨⟨core, other⟩, hcollect, hresult⟩ := Option.map_eq_some_iff.mp h
      cases hresult
      simp [Action.onCore, hcollect]
  | launch | write => cases reaction <;> cases h <;> rfl
  | awaitOutput limit =>
      simp only [State.perform] at h
      split at h <;> cases h
      rfl
  | settle interval more =>
      simp only [State.perform] at h
      split at h
      · cases h
        rfl
      · split at h <;> cases h
        rfl
  | interrupt more =>
      simp only [State.perform] at h
      split at h
      · show next.core = state.core
        rw [← attempt_core reaction more state, Option.some.inj h]
      · cases h
        rfl
  | _ =>
      cases h
      rfl

/-- Only a caller that waits for a result changes the core by giving up. -/
theorem giveUp_core {reaction : Option Fault} {action : Action} {state next : State}
    {answer : action.Answer} (h : state.giveUp reaction action = some (next, answer))
    (haction : ∀ ticket limit claimed, action ≠ .awaitResult ticket limit claimed) :
    next.core = state.core := by
  cases action with
  | awaitResult ticket limit claimed => exact absurd rfl (haction ticket limit claimed)
  | awaitOutput limit =>
      cases h
      rfl
  | acquire limit =>
      cases limit <;> cases h
      rfl
  | settle interval more =>
      simp only [State.giveUp] at h
      split at h
      · rw [← attempt_core reaction more state, Option.some.inj h]
      · cases h
        rfl
  | _ => cases h

/-- What an action makes of the wire, apart from the lines it writes and the interrupts it sends. -/
def Action.onWire (reaction : Option Fault) : Action → Wire → Wire
  | launch, wire => if reaction.isNone then { wire with connected := true } else wire
  | connect, wire => { wire with connected := true }
  | watchExit, wire => wire.watch.1
  | closeInput, wire => { wire with inputsClosed := wire.inputsClosed + 1 }
  | terminate, wire => { wire with terminations := wire.terminations + 1 }
  | _, wire => wire

/-- What an action makes of the permission to give commands. -/
def Action.onCommanded : Action → Bool → Bool
  | enableCommands, _ => true
  | disableCommands, _ => false
  | _, commanded => commanded

theorem attempt_wire (reaction : Option Fault) (more : Bool) (state : State) :
    (∃ written interrupts, (state.attempt reaction more).1.wire =
        { state.wire with written, interrupts }) ∧
      (state.attempt reaction more).1.commanded = state.commanded := by
  cases more
  · exact ⟨⟨state.wire.written, state.wire.interrupts, rfl⟩, rfl⟩
  · exact ⟨⟨state.wire.written, state.wire.interrupts + 1, rfl⟩, rfl⟩

theorem perform_wire {reaction : Option Fault} {action : Action} {state next : State}
    {answer : action.Answer} (h : state.perform reaction action = some (next, answer)) :
    (∃ written interrupts, next.wire =
        { action.onWire reaction state.wire with written, interrupts }) ∧
      next.commanded = action.onCommanded state.commanded := by
  cases action with
  | launch | write line =>
      cases reaction <;> cases h
      · exact ⟨⟨_, _, rfl⟩, rfl⟩
      · exact ⟨⟨_, _, rfl⟩, rfl⟩
  | acquire limit | awaitResult ticket limit claimed =>
      obtain ⟨result, -, hresult⟩ := Option.map_eq_some_iff.mp h
      cases hresult
      exact ⟨⟨_, _, rfl⟩, rfl⟩
  | awaitOutput limit =>
      simp only [State.perform] at h
      split at h <;> cases h
      exact ⟨⟨_, _, rfl⟩, rfl⟩
  | settle interval more =>
      simp only [State.perform] at h
      split at h
      · cases h
        exact ⟨⟨_, _, rfl⟩, rfl⟩
      · split at h <;> cases h
        exact ⟨⟨_, _, rfl⟩, rfl⟩
  | interrupt more =>
      simp only [State.perform] at h
      split at h
      · have hattempt := attempt_wire reaction more state
        rw [Option.some.inj h] at hattempt
        exact hattempt
      · cases h
        exact ⟨⟨_, _, rfl⟩, rfl⟩
  | _ =>
      cases h
      exact ⟨⟨_, _, rfl⟩, rfl⟩

/-- Who gives up waiting at most interrupts the target. -/
theorem giveUp_wire {reaction : Option Fault} {action : Action} {state next : State}
    {answer : action.Answer} (h : state.giveUp reaction action = some (next, answer)) :
    (∃ written interrupts, next.wire = { state.wire with written, interrupts }) ∧
      next.commanded = state.commanded := by
  cases action with
  | awaitOutput | awaitResult =>
      cases h
      exact ⟨⟨_, _, rfl⟩, rfl⟩
  | acquire limit =>
      cases limit <;> cases h
      exact ⟨⟨_, _, rfl⟩, rfl⟩
  | settle interval more =>
      simp only [State.giveUp] at h
      split at h
      · have hattempt := attempt_wire reaction more state
        rw [Option.some.inj h] at hattempt
        exact hattempt
      · cases h
        exact ⟨⟨_, _, rfl⟩, rfl⟩
  | _ => cases h

theorem withReader_state (session : Session) (channel : Channel) (state : State)
    (task : Activity Unit) : (session.withReader channel state task).state = state := by
  cases channel <;> rfl

theorem readerTask_withReader (session : Session) (channel other : Channel) (state : State)
    (task : Activity Unit) : (session.withReader channel state task).readerTask other =
      if channel = other then task else session.readerTask other := by
  cases channel <;> cases other <;> rfl

theorem watcherTask_withReader (session : Session) (channel : Channel) (state : State)
    (task : Activity Unit) :
    (session.withReader channel state task).watcherTask = session.watcherTask := by
  cases channel <;> rfl

/-- A turn adds one occurrence to the history, or nothing to it and to the core. -/
theorem Change.effect (h : Change program c next) :
    (next.history = c.history ∧ next.session.state.core = c.session.state.core) ∨
      ∃ occurrence, next.history = c.history ++ [occurrence] ∧
        Effect c.session.state occurrence next.session.state := by
  cases h with
  | request | router | close | reportGone => exact .inl ⟨rfl, rfl⟩
  | @read channel stream reading htask hread =>
      exact .inl ⟨rfl, by rw [Chronicle.session, withReader_state]⟩
  | act hcaller hperform => exact .inr ⟨_, rfl, .did hperform⟩
  | expire hcaller hwait hgiveUp => exact .inr ⟨_, rfl, .gaveUp hwait hgiveUp⟩
  | reader htask hperform =>
      exact .inr ⟨_, rfl, (withReader_state c.session ..).symm ▸ .did hperform⟩
  | watcher htask hperform => exact .inr ⟨_, rfl, .did hperform⟩
  | print => exact .inr ⟨_, rfl, .printed rfl⟩

/-- What holds of a fresh session, and still does after whatever happens, holds in every run. -/
theorem Possible.of_effect (h : Possible program c) (holds : Core → History → Prop)
    (hfresh : holds {} [])
    (hstep : ∀ {c next : Chronicle host ρ α} {occurrence : Occurrence}, Possible program c →
      Change program c next → next.history = c.history ++ [occurrence] →
      Effect c.session.state occurrence next.session.state →
      holds c.session.state.core c.history →
        holds next.session.state.core (c.history ++ [occurrence])) :
    holds c.session.state.core c.history := by
  induction h with
  | fresh => exact hfresh
  | turn h turn hturn ih =>
      have hchange := Chronicle.change_of_turn? hturn
      rcases hchange.effect with ⟨hsame, hcore⟩ | ⟨occurrence, hlast, heffect⟩
      · rw [hsame, hcore]
        exact ih
      · rw [hlast]
        exact hstep h hchange hlast heffect ih

/-- What callers have done leads from the programs of their requests to what is left of them. -/
theorem Possible.accounted (h : Possible program c) :
    Accounted program c.requests c.system.callers fun i => deedsOf (.caller i) c.history := by
  induction h with
  | fresh => exact .empty fun _ => rfl
  | turn h turn hturn ih => exact ih.turn hturn

/-- What a caller has done leads from the program of its request to what is left of it. -/
theorem Possible.leads_of_request (h : Possible program c) {n : Nat} {r : ρ}
    (hrequest : c.requests[n]? = some r) :
    ∃ rest, c.system.callers[n]? = some rest ∧
      (program r).Leads (deedsOf (.caller n) c.history) rest :=
  h.accounted.leads_of_request hrequest

/-- What a caller has done that has got its answer leads from the program of its request to that. -/
theorem Possible.leads_of_value (h : Possible program c) {n : Nat} {r : ρ} {value : α}
    (hrequest : c.requests[n]? = some r) (hvalue : c.system.value? n = some value) :
    (program r).Leads (deedsOf (.caller n) c.history) (.done value) := by
  obtain ⟨rest, hcaller, hleads⟩ := h.leads_of_request hrequest
  cases hcaller.symm.trans (System.value?_eq_some_iff.mp hvalue)
  exact hleads

end Past

/-! ## Moments -/

section Moments

variable {program : ρ → Activity α} {c next earlier later : Chronicle host ρ α}

/-- A turn of a run that has come to `c`, with what was there before and after it. -/
structure Moment (program : ρ → Activity α) (c earlier later : Chronicle host ρ α) : Prop where
  possible : Possible program earlier
  turn : ∃ turn, earlier.turn? program turn = some later
  goesOn : ∃ more, later.turns? program more = some c

theorem Moment.change (h : Moment program c earlier later) : Change program earlier later := by
  obtain ⟨turn, hturn⟩ := h.turn
  exact Chronicle.change_of_turn? hturn

theorem Moment.possible_later (h : Moment program c earlier later) : Possible program later := by
  obtain ⟨turn, hturn⟩ := h.turn
  exact h.possible.turn turn hturn

theorem Moment.of_turn? (h : Moment program c earlier later) {turn : Turn ρ}
    (hturn : c.turn? program turn = some next) : Moment program next earlier later := by
  obtain ⟨more, hmore⟩ := h.goesOn
  refine ⟨h.possible, h.turn, more ++ [turn], ?_⟩
  exact (foldlM_append_of_eq_some hmore).trans (foldlM_cons_of_eq_some hturn)

/-- What an occurrence has done at its moment. -/
theorem Moment.effect (h : Moment program c earlier later) {occurrence : Occurrence}
    (hlater : later.history = earlier.history ++ [occurrence]) :
    Effect earlier.session.state occurrence later.session.state := by
  rcases h.change.effect with ⟨hsame, -⟩ | ⟨last, hlast, heffect⟩
  · simp [hsame] at hlater
  · obtain rfl : last = occurrence := by simpa [hlast] using hlater
    exact heffect

/-- The moment of an occurrence. -/
theorem Possible.exists_moment (h : Possible program c) {before after : History}
    {occurrence : Occurrence} (hhistory : c.history = before ++ occurrence :: after) :
    ∃ earlier later, Moment program c earlier later ∧ earlier.history = before ∧
      later.history = before ++ [occurrence] := by
  induction h generalizing after with
  | fresh => simp at hhistory
  | @turn c next h turn hturn ih =>
      rcases (Chronicle.change_of_turn? hturn).effect with ⟨hsame, -⟩ | ⟨last, hlast, -⟩
      · obtain ⟨earlier, later, hmoment, hhistories⟩ := ih (hsame ▸ hhistory)
        exact ⟨earlier, later, hmoment.of_turn? hturn, hhistories⟩
      · rw [hlast] at hhistory
        -- either this was the last turn, or the occurrence lies further back
        rcases List.eq_nil_or_concat after with rfl | ⟨init, final, rfl⟩
        · obtain ⟨hbefore, hoccurrence⟩ := List.append_inj' hhistory rfl
          cases hoccurrence
          exact ⟨c, next, ⟨h, ⟨turn, hturn⟩, [], rfl⟩, hbefore, hbefore ▸ hlast⟩
        · rw [List.concat_eq_append, ← List.cons_append, ← List.append_assoc] at hhistory
          obtain ⟨earlier, later, hmoment, hhistories⟩ := ih (List.append_inj' hhistory rfl).1
          exact ⟨earlier, later, hmoment.of_turn? hturn, hhistories⟩

end Moments

/-! ## Parties in the background -/

/-- Whether an action only reports what the debugger does. -/
def Action.Reports : Action → Prop
  | setRunning running => running = false
  | markExited | markHeard | applyExec _ | noteResult _ | deliver _ | publish _ => True
  | _ => False

/-- The program only reports. -/
abbrev OnlyReports {β : Type} (program : Activity β) : Prop :=
  program.OnlyDoes Action.Reports

theorem onlyReports_finish : OnlyReports finish := by
  refine ⟨trivial, ?_⟩
  intro answer
  cases answer with
  | false => trivial
  | true => exact ⟨trivial, fun _ => trivial⟩

theorem onlyReports_handleResult (outcome : Outcome) : OnlyReports (handleResult outcome) :=
  ⟨trivial, fun _ => ⟨trivial, fun _ => trivial⟩⟩

theorem onlyReports_handleRecord (record : Record) : OnlyReports (handleRecord record) := by
  cases record with
  | result outcome =>
      have hresult := onlyReports_handleResult outcome
      simp only [handleRecord]
      split
      · exact ⟨trivial, fun _ => hresult⟩
      · exact hresult
  | console text =>
      simp only [handleRecord]
      split
      · exact ⟨rfl, fun _ => ⟨trivial, fun _ => trivial⟩⟩
      · exact ⟨trivial, fun _ => trivial⟩
  | exec => exact ⟨trivial, fun _ => ⟨trivial, fun _ => trivial⟩⟩
  | notify | log | target => exact ⟨trivial, fun _ => trivial⟩

theorem onlyReports_handleLine (line : String) : OnlyReports (handleLine line) := by
  unfold handleLine
  refine ⟨trivial, fun _ => ⟨trivial, fun _ => ?_⟩⟩
  cases hread : Record.read line with
  | error failure => trivial
  | ok record =>
      cases record with
      | none => trivial
      | some record => exact onlyReports_handleRecord record

theorem onlyReports_handleReading (channel : Channel) (reading : Stream.Reading) :
    OnlyReports (handleReading channel reading) := by
  cases reading
  case line text => exact onlyReports_handleLine text
  -- the stream has ended
  cases channel with
  | output => exact onlyReports_finish
  | error => trivial

section Background

variable {program : ρ → Activity α} {c next : Chronicle host ρ α}

/-- The parties in the background only report. -/
structure BackgroundReports (session : Session) : Prop where
  reader : ∀ channel, OnlyReports (session.readerTask channel)
  watcher : OnlyReports session.watcherTask

theorem BackgroundReports.withReader {session : Session} (h : BackgroundReports session)
    (channel : Channel) (state : State) {task : Activity Unit} (htask : OnlyReports task) :
    BackgroundReports (session.withReader channel state task) := by
  cases channel with
  | output =>
      refine ⟨fun channel => ?_, h.watcher⟩
      cases channel with
      | output => exact htask
      | error => exact h.reader .error
  | error =>
      refine ⟨fun channel => ?_, h.watcher⟩
      cases channel with
      | output => exact h.reader .output
      | error => exact htask

theorem BackgroundReports.of_change (h : BackgroundReports c.session)
    (hchange : Change program c next) : BackgroundReports next.session := by
  cases hchange with
  | request | act | expire | router | print | close => exact ⟨h.reader, h.watcher⟩
  | @reader channel action rest state answer htask hperform =>
      have hreports := h.reader channel
      rw [htask] at hreports
      exact h.withReader channel state (hreports.2 answer)
  | @read channel stream reading htask hread =>
      exact h.withReader channel _ (onlyReports_handleReading channel reading)
  | @watcher action rest state answer htask hperform =>
      have hreports := h.watcher
      rw [htask] at hreports
      exact ⟨h.reader, hreports.2 answer⟩
  | reportGone =>
      refine ⟨h.reader, ?_⟩
      show OnlyReports (if c.session.state.wire.reportGone.2 then _ else _)
      split
      · exact onlyReports_finish
      · exact h.watcher

/-- Whoever is no caller only reports. -/
theorem BackgroundReports.reports (h : BackgroundReports c.session)
    (hchange : Change program c next) {occurrence : Occurrence}
    (hhistory : next.history = c.history ++ [occurrence]) {actor : Actor}
    (hactor : ∀ n, actor ≠ .caller n) {deed : Deed interface}
    (hdeed : occurrence.deedOf? actor = some deed) : deed.action.Reports := by
  cases hchange with
  | request | read | router | close | reportGone => simp at hhistory
  | print =>
      obtain rfl := by simpa using hhistory
      cases hdeed
  | act | expire =>
      obtain rfl := by simpa using hhistory
      obtain ⟨rfl, -⟩ := by simpa [Occurrence.deedOf?] using hdeed
      exact absurd rfl (hactor _)
  | @reader channel action rest state answer htask hperform =>
      obtain rfl := by simpa using hhistory
      obtain ⟨rfl, rfl⟩ := by simpa [Occurrence.deedOf?] using hdeed
      have htask := htask ▸ h.reader channel
      exact htask.1
  | watcher htask hperform =>
      obtain rfl := by simpa using hhistory
      obtain ⟨rfl, rfl⟩ := by simpa [Occurrence.deedOf?] using hdeed
      have htask := htask ▸ h.watcher
      exact htask.1

/-- What a caller does in a turn is what its program does next. -/
theorem Change.exists_caller (hchange : Change program c next) {occurrence : Occurrence}
    (hhistory : next.history = c.history ++ [occurrence]) {n : Nat} {deed : Deed interface}
    (hdeed : occurrence.deedOf? (.caller n) = some deed) :
    ∃ action rest, c.system.callers[n]? = some (.act action rest) ∧ deed.action = action := by
  cases hchange with
  | request | read | router | close | reportGone => simp at hhistory
  | print | reader | watcher =>
      obtain rfl := by simpa using hhistory
      simp [Occurrence.deedOf?] at hdeed
  | act hcaller | expire hcaller =>
      obtain rfl := by simpa using hhistory
      obtain ⟨rfl, rfl⟩ := by simpa [Occurrence.deedOf?] using hdeed
      exact ⟨_, _, hcaller, rfl⟩

theorem Possible.backgroundReports (h : Possible program c) : BackgroundReports c.session := by
  induction h with
  | fresh => exact ⟨fun channel => by cases channel <;> trivial, trivial⟩
  | turn h turn hturn ih => exact ih.of_change (Chronicle.change_of_turn? hturn)

/-- A reader has only done what it may do with what it reads, and will only do so. -/
theorem Possible.reader_onlyDoes (h : Possible program c) {channel : Channel}
    {permitted : Action → Prop}
    (hreading : ∀ reading, (handleReading channel reading).OnlyDoes permitted) :
    (c.session.readerTask channel).OnlyDoes permitted ∧
      ∀ deed ∈ deedsOf (.reader channel) c.history, permitted deed.action := by
  induction h with
  | fresh => cases channel <;> exact ⟨trivial, nofun⟩
  | turn h turn hturn ih =>
      obtain ⟨htask, hdeeds⟩ := ih
      cases Chronicle.change_of_turn? hturn with
      | request | router | close | reportGone => exact ⟨htask, hdeeds⟩
      | act | expire | watcher | print =>
          rw [deedsOf_append_of_none (by simp [Occurrence.deedOf?])]
          exact ⟨htask, hdeeds⟩
      | @reader other action rest state answer hother hperform =>
          rw [Chronicle.session, readerTask_withReader]
          by_cases hne : other = channel
          · subst hne
            rw [hother] at htask
            rw [if_pos rfl, deedsOf_append_of_some (deedOf?_did ..)]
            refine ⟨htask.2 answer, ?_⟩
            simpa [or_imp, forall_and] using ⟨hdeeds, htask.1⟩
          · rw [if_neg hne, deedsOf_append_of_none (by simpa [Occurrence.deedOf?] using hne)]
            exact ⟨htask, hdeeds⟩
      | @read other stream reading hother hread =>
          rw [Chronicle.session, readerTask_withReader]
          by_cases hne : other = channel
          · subst hne
            rw [if_pos rfl]
            exact ⟨hreading reading, hdeeds⟩
          · rw [if_neg hne]
            exact ⟨htask, hdeeds⟩

/-- Whoever is no caller has only reported. -/
theorem Possible.reports (h : Possible program c) {actor : Actor} (hactor : ∀ n, actor ≠ .caller n) :
    ∀ deed ∈ deedsOf actor c.history, deed.action.Reports := by
  induction h with
  | fresh => exact nofun
  | @turn c next h turn hturn ih =>
      have hchange := Chronicle.change_of_turn? hturn
      rcases hchange.effect with ⟨hsame, -⟩ | ⟨occurrence, hlast, -⟩
      · rw [hsame]
        exact ih
      · rw [hlast]
        cases hdeed : occurrence.deedOf? actor with
        | none =>
            rw [deedsOf_append_of_none hdeed]
            exact ih
        | some deed =>
            rw [deedsOf_append_of_some hdeed]
            have hreports := h.backgroundReports.reports hchange hlast hactor hdeed
            simpa [or_imp, forall_and] using ⟨ih, hreports⟩

/-! ## What is permitted -/

variable {rules : Protocol interface} {stage : rules.Stage}

/-- What a caller has done was permitted at the time, if the programs keep to the protocol. -/
theorem Possible.keeps (h : Possible program c)
    (hprogram : ∀ r, ∃ ends, (program r).Follows rules stage ends) {caller : Nat}
    (hdeeds : ∀ deed ∈ deedsOf (.caller caller) c.history,
      rules.Admits deed.action deed.answer) :
    rules.Keeps stage (deedsOf (.caller caller) c.history) :=
  h.accounted.keeps hprogram caller hdeeds

/-- What a caller has done was permitted at the time, if the program of its request keeps to the
protocol. -/
theorem Possible.keeps_of_request (h : Possible program c) {n : Nat} {r : ρ}
    (hrequest : c.requests[n]? = some r) {ends : α → rules.Stage → Prop}
    (hfollows : (program r).Follows rules stage ends)
    (hdeeds : ∀ deed ∈ deedsOf (.caller n) c.history, rules.Admits deed.action deed.answer) :
    rules.Keeps stage (deedsOf (.caller n) c.history) := by
  obtain ⟨rest, -, hleads⟩ := h.leads_of_request hrequest
  exact hleads.keeps hdeeds hfollows

/-- What an actor does next is permitted, if the programs keep to the protocol and it leaves those
alone that only report. -/
theorem Possible.permits (h : Possible program c) (hchange : Change program c next)
    (hprogram : ∀ r, ∃ ends, (program r).Follows rules stage ends)
    (hreports : ∀ stage action, action.Reports → rules.Permits stage action)
    {occurrence : Occurrence} (hhistory : next.history = c.history ++ [occurrence])
    {actor : Actor} {deed : Deed interface} (hdeed : occurrence.deedOf? actor = some deed)
    (hdeeds : ∀ deed ∈ deedsOf actor c.history, rules.Admits deed.action deed.answer) :
    rules.Permits (rules.stageAfter stage (deedsOf actor c.history)) deed.action := by
  cases actor with
  | caller n =>
      obtain ⟨action, rest, hcaller, rfl⟩ := hchange.exists_caller hhistory hdeed
      exact h.accounted.permits hprogram hcaller hdeeds
  | reader | watcher =>
      exact hreports _ _ (h.backgroundReports.reports hchange hhistory (by simp) hdeed)

end Background

end DebugBridge.Session
