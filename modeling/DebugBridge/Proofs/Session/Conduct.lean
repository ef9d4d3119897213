import DebugBridge.Proofs.Session.Assembly
import DebugBridge.Proofs.Session.Run

/-!
# The conduct of callers

Whatever a session is asked to do, its callers carry out commands one after the other, each along
the same course: they acquire the gate, arm the slot, write a line, wait for the result under the
ticket they were given, and release the gate.  They leave this course early, but never otherwise.

## Main statements

* `runCommand_conducts` and `tryRunCommand_conducts`: the course of a single command.
* `Operation.conducts`: every operation of a session takes this course for all of its commands, and
  answers with results of these commands or with outcomes that were made up.
* `Request.conducts`: the same of everything that callers can ask for.
-/

namespace DebugBridge.Session

/-! ## The course of a command -/

/-- Where an actor is in its command. -/
inductive Leg
  /-- it does not hold the gate -/
  | idle
  /-- it holds the gate -/
  | admitted
  /-- it has armed the slot -/
  | armed (ticket : Nat)
  /-- its line was written -/
  | sent (ticket : Nat)
  /-- its line could not be written -/
  | refused (ticket : Nat)
  /-- it has left the slot and still holds the gate -/
  | settled
deriving DecidableEq

/-- Whether an action is a step on the course of a command. -/
def Action.Steers : Action → Prop
  | acquire _ | release | arm | disarm | write _ | awaitResult _ _ _ => True
  | _ => False

namespace Leg

/-- The ticket of the command in flight. -/
def ticket? : Leg → Option Nat
  | armed ticket | sent ticket | refused ticket => some ticket
  | idle | admitted | settled => none

/-- What is permitted on a leg.  Actions that do not belong to the course are permitted on each,
but to deliver a result may be forbidden altogether. -/
def Permits (delivers : Prop) : Leg → Action → Prop
  | _, .deliver _ => delivers
  | idle, .acquire _ => True
  | admitted, .arm => True
  | admitted, .release => True
  | armed _, .write _ => True
  | sent ticket, .awaitResult other _ _ => other = ticket
  | refused _, .disarm => True
  | settled, .release => True
  | _, action => ¬ action.Steers

/-- The leg that follows on an action with its answer. -/
def after (leg : Leg) : (action : Action) → action.Answer → Leg
  | .acquire _, granted => if granted then admitted else leg
  | .release, _ => idle
  | .arm, ticket => armed ticket
  | .write _, fault =>
      match leg, fault with
      | armed ticket, none => sent ticket
      | armed ticket, some _ => refused ticket
      | leg, _ => leg
  | .disarm, _ => settled
  | .awaitResult _ _ _, _ => settled
  | _, _ => leg

theorem after_of_not_steers {action : Action} (h : ¬ action.Steers) (leg : Leg)
    (answer : action.Answer) : leg.after action answer = leg := by
  cases action <;> first | rfl | exact absurd trivial h

theorem permits_of_not_steers {delivers : Prop} {action : Action} (h : ¬ action.Steers)
    (hdelivers : ∀ outcome, action = .deliver outcome → delivers) (leg : Leg) :
    leg.Permits delivers action := by
  cases action with
  | deliver outcome => exact hdelivers outcome rfl
  | acquire | release | arm | disarm | write | awaitResult => exact absurd trivial h
  | _ => cases leg <;> exact h

section Permits

variable {delivers : Prop} {leg : Leg}

/-- What is permitted to those who may not deliver is permitted to all. -/
theorem Permits.mono {action : Action} (h : leg.Permits delivers action) :
    leg.Permits True action := by
  cases action with
  | deliver outcome => cases leg <;> trivial
  | _ => cases leg <;> exact h

theorem permits_release :
    leg.Permits delivers .release ↔ leg = admitted ∨ leg = settled := by
  cases leg <;> simp [Permits, Action.Steers]

theorem permits_arm : leg.Permits delivers .arm ↔ leg = admitted := by
  cases leg <;> simp [Permits, Action.Steers]

theorem permits_disarm : leg.Permits delivers .disarm ↔ ∃ ticket, leg = refused ticket := by
  cases leg <;> simp [Permits, Action.Steers]

theorem permits_write {line : String} :
    leg.Permits delivers (.write line) ↔ ∃ ticket, leg = armed ticket := by
  cases leg <;> simp [Permits, Action.Steers]

theorem permits_awaitResult {ticket limit : Nat} {claimed : Bool} :
    leg.Permits delivers (.awaitResult ticket limit claimed) ↔ leg = sent ticket := by
  cases leg <;> simp [Permits, Action.Steers, eq_comm]

end Permits

end Leg

/-- The answers that callers are prepared for: a wait without a limit ends with the gate, and what
is taken from the slot is as stated. -/
def Admits (taken : Outcome → Prop) : (action : Action) → action.Answer → Prop
  | .acquire none, granted => granted = true
  | .awaitResult _ _ _, outcome => taken outcome
  | _, _ => True

/-- The course of a command. -/
abbrev course (delivers : Prop) (taken : Outcome → Prop) : Protocol interface where
  Stage := Leg
  Permits := Leg.Permits delivers
  Admits := Admits taken
  after := Leg.after

/-- The program carries out commands one after the other, each along its course, and the outcomes in
what it answers are ones that were taken from the slot or made up. -/
def Conducts {β : Type} (delivers : Prop) (taken : Outcome → Prop) (program : Activity β)
    (outcomes : β → List Outcome) : Prop :=
  program.Follows (course delivers taken) .idle fun value leg =>
    leg = .idle ∧ ∀ outcome ∈ outcomes value, taken outcome

section Conduct

variable {β γ : Type} {delivers : Prop} {taken : Outcome → Prop}

theorem conducts_pure {value : β} {outcomes : β → List Outcome}
    (h : ∀ outcome ∈ outcomes value, taken outcome) :
    Conducts delivers taken (pure value) outcomes :=
  ⟨rfl, h⟩

theorem Conducts.bind {program : Activity β} {next : β → Activity γ}
    {first : β → List Outcome} {outcomes : γ → List Outcome}
    (h : Conducts delivers taken program first)
    (hnext : ∀ value, (∀ outcome ∈ first value, taken outcome) →
      Conducts delivers taken (next value) outcomes) :
    Conducts delivers taken (program >>= next) outcomes := by
  refine Program.Follows.bind h ?_
  intro value leg hvalue
  obtain ⟨rfl, htaken⟩ := hvalue
  exact hnext value htaken

/-! ## Single commands -/

section Command

variable (hmadeUp : ∀ outcome : Outcome, outcome.MadeUp → taken outcome)

include hmadeUp

theorem writeFault_follows (fault : Fault) (claimed : Bool) (ticket : Nat) :
    (writeFault fault claimed).Follows (course delivers taken) (.refused ticket)
      fun outcome leg => leg = .settled ∧ taken outcome := by
  have hexit : ∀ exited : Bool,
      (if exited then return .sessionExited else return .writeFailed fault.message :
        Activity Outcome).Follows (course delivers taken) .settled
        fun outcome leg => leg = .settled ∧ taken outcome := by
    intro exited
    cases exited with
    | true => exact ⟨rfl, hmadeUp _ (Outcome.madeUp_ofMessage _ _)⟩
    | false => exact ⟨rfl, hmadeUp _ (Outcome.madeUp_ofMessage _ _)⟩
  refine ⟨trivial, ?_⟩
  intro _ _
  cases claimed with
  | true => exact ⟨id, fun _ _ => ⟨id, fun exited _ => hexit exited⟩⟩
  | false => exact ⟨id, fun exited _ => hexit exited⟩

theorem exchange_follows (line : String) (limit : Nat) (claimed : Bool) :
    (exchange line limit claimed).Follows (course delivers taken) .admitted
      fun outcome leg => leg = .settled ∧ taken outcome := by
  refine ⟨trivial, fun ticket _ => ⟨trivial, fun fault _ => ?_⟩⟩
  cases fault with
  | some fault => exact writeFault_follows hmadeUp fault claimed ticket
  | none => exact ⟨id, fun _ _ => ⟨rfl, fun outcome houtcome => ⟨rfl, houtcome⟩⟩⟩

/-- A command that holds the gate has left the slot when it is over. -/
theorem admitted_follows (config : Config) (line : String) (limit : Nat) :
    (admitted config line limit).Follows (course delivers taken) .admitted
      fun outcome leg => (leg = .admitted ∨ leg = .settled) ∧ taken outcome := by
  have hexchange (claimed : Bool) : (exchange line limit claimed).Follows (course delivers taken)
      .admitted fun outcome leg => (leg = .admitted ∨ leg = .settled) ∧ taken outcome :=
    (exchange_follows hmadeUp line limit claimed).mono fun outcome leg h => ⟨.inr h.1, h.2⟩
  refine ⟨id, ?_⟩
  intro exited _
  cases exited with
  | true => exact ⟨.inl rfl, hmadeUp _ (Outcome.madeUp_ofMessage _ _)⟩
  | false =>
      show (if config.asyncMode then _ else _ : Activity Outcome).Follows _ _ _
      split
      · exact hexchange false
      · refine ⟨id, ?_⟩
        intro granted _
        cases granted with
        | true => exact hexchange true
        | false =>
            exact ⟨id, fun _ _ => ⟨.inl rfl, hmadeUp _ (Outcome.madeUp_ofMessage _ _)⟩⟩

/-- What follows on an admitted command: the gate is released. -/
private theorem release_follows (config : Config) (line : String) (limit : Nat)
    (answer : Outcome → β) (outcomes : β → List Outcome)
    (houtcomes : ∀ outcome, outcomes (answer outcome) = [outcome]) :
    (do let outcome ← admitted config line limit
        perform .release
        return answer outcome : Activity β).Follows (course delivers taken) .admitted
      fun value leg => leg = .idle ∧ ∀ outcome ∈ outcomes value, taken outcome := by
  refine (admitted_follows hmadeUp config line limit).bind ?_
  intro outcome leg h
  -- a command that was refused has not left the leg on which it was admitted
  obtain ⟨rfl | rfl, htaken⟩ := h
  · exact ⟨trivial, fun _ _ => ⟨rfl, by simpa [houtcomes] using htaken⟩⟩
  · exact ⟨trivial, fun _ _ => ⟨rfl, by simpa [houtcomes] using htaken⟩⟩

theorem runCommand_conducts (config : Config) (line : String) (limit : Nat) :
    Conducts delivers taken (runCommand config line limit) fun outcome => [outcome] := by
  refine ⟨trivial, ?_⟩
  intro granted hgranted
  -- a wait without a limit ends with the gate
  obtain rfl : granted = true := hgranted
  exact release_follows hmadeUp config line limit id _ fun outcome => rfl

theorem tryRunCommand_conducts (config : Config) (line : String) (limit : Nat) :
    Conducts delivers taken (tryRunCommand config line limit) Option.toList := by
  refine ⟨trivial, ?_⟩
  intro granted _
  cases granted with
  | true => exact release_follows hmadeUp config line limit some _ fun outcome => rfl
  | false => exact ⟨rfl, by simp⟩

end Command

end Conduct

/-! ## Requests -/

/-- Something that a caller can ask for: an operation, or that what the debugger did be noted. -/
inductive Request
  | operation (asked : Operation)
  /-- a result record is delivered -/
  | result (outcome : Outcome)
  /-- a line of output is taken into account -/
  | line (text : String)
  /-- the session has ended -/
  | ended

/-- The program of a request. -/
def Request.program (plan : Plan) : Request → Activity Reply
  | operation asked => asked.program plan
  | result outcome => do
      handleResult outcome
      return .noted
  | line text => do
      handleLine text
      return .noted
  | ended => do
      Session.finish
      return .noted

/-- A host that shows nothing. -/
def Host.blind : Host :=
  ⟨fun _ => false, fun _ _ => none, fun _ _ _ => false⟩

/-- A program on this machine, debugged with the limits as they are. -/
def Plan.plain : Plan :=
  ⟨{ debugger := "gdb", elfFile := "a.out" }, .local⟩

theorem Action.IsPlain.not_steers {action : Action} (h : action.IsPlain) : ¬ action.Steers := by
  cases action <;> first | exact id | exact absurd h id

theorem Action.IsPlain.not_deliver {action : Action} (h : action.IsPlain) (outcome : Outcome) :
    action ≠ .deliver outcome := by
  rintro rfl
  exact h

/-- A program that is put together from commands takes the course of commands. -/
theorem Assembled.conducts {β : Type} {config : Config} {delivers : Prop}
    {taken : Outcome → Prop} {ends : β → Prop} {program : Activity β}
    (h : Assembled config taken ends program)
    (hmadeUp : ∀ outcome : Outcome, outcome.MadeUp → taken outcome) :
    program.Follows (course delivers taken) .idle fun value leg => leg = .idle ∧ ends value := by
  refine h.follows (course delivers taken) (· = .idle) ?_ ?_ ?_ rfl
  · rintro _ action rfl haction
    refine ⟨Leg.permits_of_not_steers haction.not_steers
      (fun outcome h => absurd h (haction.not_deliver outcome)) _, ?_⟩
    exact fun answer => Leg.after_of_not_steers haction.not_steers _ _
  · rintro _ line limit rfl
    exact (runCommand_conducts hmadeUp config line limit).mono fun outcome leg h =>
      ⟨h.1, h.2 outcome (by simp)⟩
  · rintro _ line limit rfl
    exact (tryRunCommand_conducts hmadeUp config line limit).mono fun result leg h =>
      ⟨h.1, fun outcome houtcome => h.2 outcome (by simpa using houtcome)⟩

theorem Operation.conducts {delivers : Prop} {taken : Outcome → Prop}
    (hmadeUp : ∀ outcome : Outcome, outcome.MadeUp → taken outcome) (plan : Plan)
    (operation : Operation) :
    Conducts delivers taken (operation.program plan) Reply.outcomesOf :=
  (operation.assembled hmadeUp plan).conducts hmadeUp

theorem Action.Reports.not_steers {action : Action} (h : action.Reports) : ¬ action.Steers := by
  cases action <;> first | exact id | exact absurd h id

theorem OnlyReports.conducts {β : Type} {taken : Outcome → Prop} {program : Activity β}
    (h : OnlyReports program) : Conducts True taken program fun _ => [] :=
  (h.follows (fun action haction => Leg.permits_of_not_steers haction.not_steers (by simp) _)
    fun action answer haction => Leg.after_of_not_steers haction.not_steers _ _).mono
    fun _ _ hleg => ⟨hleg, nofun⟩

theorem Request.conducts {taken : Outcome → Prop}
    (hmadeUp : ∀ outcome : Outcome, outcome.MadeUp → taken outcome) (plan : Plan)
    (request : Request) :
    Conducts True taken (request.program plan) Reply.outcomesOf := by
  cases request with
  | operation operation => exact operation.conducts hmadeUp plan
  | result outcome =>
      exact (onlyReports_handleResult outcome).conducts.bind fun _ _ => conducts_pure nofun
  | line text => exact (onlyReports_handleLine text).conducts.bind fun _ _ => conducts_pure nofun
  | ended => exact onlyReports_finish.conducts.bind fun _ _ => conducts_pure nofun

end DebugBridge.Session
