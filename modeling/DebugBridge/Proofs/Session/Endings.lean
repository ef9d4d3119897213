import DebugBridge.Proofs.Session.Assembly

/-!
# How a command ends

A command that holds the gate ends in one of four ways: the session had ended when it was admitted,
it is rejected because the target executes, its line cannot be written, or its line is written and
it waits.  For each way it is known to the last action what the command has done.

## Main statements

* `admitted_ends`: what a command that holds the gate has done when it has come to its outcome.
* `Ending.discreet`: what that leaves alone, and what it publishes.
-/

namespace DebugBridge.Session

/-- A way in which a command that holds the gate comes to its outcome. -/
inductive Way
  /-- the session had ended before it was admitted -/
  | exited
  /-- the target executes -/
  | rejected
  /-- its line could not be written -/
  | unwritten
  /-- its line was written, and it has waited -/
  | waited
deriving DecidableEq

/-- What a command does before it arms the slot. -/
def admission (config : Config) : List (Deed interface) :=
  ⟨.isExited, false⟩ :: if config.asyncMode then [] else [⟨.claimTarget, true⟩]

/-- What a command does whose line could not be written. -/
def retreat (config : Config) (exited : Bool) : List (Deed interface) :=
  ⟨.disarm, ()⟩ ::
    ((if config.asyncMode then [] else [⟨.setRunning false, ()⟩]) ++ [⟨.isExited, exited⟩])

/-- What is published where a command is rejected. -/
def rejection (line : String) : Event :=
  .output (Outcome.targetRunning.raw ++ ": " ++ line)

/-- What a command that holds the gate has done when it has come to its outcome in a way. -/
inductive Ending (config : Config) (line : String) (limit : Nat) :
    Way → Outcome → List (Deed interface) → Prop
  | exited : Ending config line limit .exited .sessionExited [⟨.isExited, true⟩]
  | rejected (hsync : config.asyncMode = false) :
      Ending config line limit .rejected .targetRunning
        [⟨.isExited, false⟩, ⟨.claimTarget, false⟩, ⟨.publish (rejection line), ()⟩]
  | unwritten (ticket : Nat) (fault : Fault) (exited : Bool) :
      Ending config line limit .unwritten
        (if exited then .sessionExited else .writeFailed fault.message)
        (admission config ++ ⟨.arm, ticket⟩ :: ⟨.write line, some fault⟩ :: retreat config exited)
  | waited (ticket : Nat) (outcome : Outcome) :
      Ending config line limit .waited outcome
        (admission config ++ [⟨.arm, ticket⟩, ⟨.write line, none⟩,
          ⟨.publish (.commandSent line), ()⟩,
          ⟨.awaitResult ticket limit (!config.asyncMode), outcome⟩])

/-- Whether an action is one of a command that was admitted and writes such lines. -/
def Action.Exchanges (lines : String → Prop) : Action → Prop
  | isExited | arm | disarm | awaitResult _ _ _ => True
  | write line => lines line
  | publish event => event ≠ .exited
  | setRunning running => running = false
  | _ => False

section Exchanges

variable {lines : String → Prop}

theorem writeFault_exchanges (fault : Fault) (claimed : Bool) :
    (writeFault fault claimed).OnlyDoes (Action.Exchanges lines) := by
  have hexit : (do
      if ← perform .isExited then
        return .sessionExited
      return .writeFailed fault.message : Activity Outcome).OnlyDoes (Action.Exchanges lines) := by
    refine ⟨trivial, ?_⟩
    intro exited
    cases exited <;> trivial
  refine ⟨trivial, ?_⟩
  intro _
  cases claimed with
  | true => exact ⟨rfl, fun _ => hexit⟩
  | false => exact hexit

variable {line : String} (hline : lines line)

include hline

theorem exchange_exchanges (limit : Nat) (claimed : Bool) :
    (exchange line limit claimed).OnlyDoes (Action.Exchanges lines) := by
  refine ⟨trivial, fun ticket => ⟨hline, ?_⟩⟩
  intro fault
  cases fault with
  | some fault => exact writeFault_exchanges fault claimed
  | none => exact ⟨nofun, fun _ => ⟨trivial, fun _ => trivial⟩⟩

/-- A command that holds the gate does nothing else, apart from claiming the target. -/
theorem admitted_exchanges (config : Config) (limit : Nat) :
    (admitted config line limit).OnlyDoes fun action : Action =>
      action.Exchanges lines ∨ action = .claimTarget := by
  have hexchange (claimed : Bool) : (exchange line limit claimed).OnlyDoes fun action : Action =>
      action.Exchanges lines ∨ action = .claimTarget :=
    (exchange_exchanges hline limit claimed).mono fun _ => .inl
  refine ⟨.inl trivial, ?_⟩
  intro exited
  cases exited with
  | true => trivial
  | false =>
      show Program.OnlyDoes _ (if config.asyncMode then _ else _)
      split
      · exact hexchange false
      · refine ⟨.inr rfl, ?_⟩
        intro granted
        cases granted with
        | true => exact hexchange true
        | false => exact ⟨.inl nofun, fun _ => trivial⟩

end Exchanges

section Ends

variable {config : Config} {line : String} {limit : Nat}

theorem writeFault_ends (fault : Fault) : (writeFault fault (!config.asyncMode)).Yields
    fun outcome deeds => ∃ exited, deeds = retreat config exited ∧
      outcome = if exited then .sessionExited else .writeFailed fault.message := by
  intro _
  cases hmode : config.asyncMode with
  | true =>
      intro exited
      refine (?_ : Program.Yields (if exited then _ else _) _)
      cases exited
      · exact ⟨false, by simp [retreat, hmode], rfl⟩
      · exact ⟨true, by simp [retreat, hmode], rfl⟩
  | false =>
      intro _ exited
      cases exited
      · exact ⟨false, by simp [retreat, hmode], rfl⟩
      · exact ⟨true, by simp [retreat, hmode], rfl⟩

/-- What follows on the admission of a command. -/
theorem exchange_ends : (exchange line limit (!config.asyncMode)).Yields fun outcome deeds =>
    ∃ way, Ending config line limit way outcome (admission config ++ deeds) := by
  intro ticket fault
  cases fault with
  | none => exact fun _ outcome => ⟨.waited, .waited ticket outcome⟩
  | some fault =>
      refine (writeFault_ends fault).mono ?_
      rintro outcome deeds ⟨exited, rfl, rfl⟩
      exact ⟨.unwritten, .unwritten ticket fault exited⟩

theorem admitted_ends (config : Config) (line : String) (limit : Nat) :
    (admitted config line limit).Yields fun outcome deeds =>
      ∃ way, Ending config line limit way outcome deeds := by
  intro exited
  cases exited with
  | true => exact ⟨.exited, .exited⟩
  | false =>
      show Program.Yields (if config.asyncMode then _ else _) _
      have hexchange : (exchange line limit (!config.asyncMode)).Yields _ := exchange_ends
      cases hmode : config.asyncMode with
      | true => simpa [admission, hmode] using hexchange
      | false =>
          intro granted
          cases granted with
          | true =>
              simp only [admission, hmode] at hexchange
              exact hexchange
          | false => exact fun _ => ⟨.rejected, .rejected hmode⟩

/-- A command that waits for the gate for ever. -/
theorem runCommand_ends (config : Config) (line : String) (limit : Nat) :
    (runCommand config line limit).Yields fun outcome deeds => ∃ granted way tenure,
      deeds = ⟨.acquire none, granted⟩ :: (tenure ++ [⟨.release, ()⟩]) ∧
        Ending config line limit way outcome tenure := by
  intro granted
  refine (admitted_ends config line limit).bind ?_
  rintro outcome tenure ⟨way, hending⟩ _
  exact ⟨granted, way, tenure, rfl, hending⟩

/-- A command that waits for the gate up to a limit may do without it. -/
theorem tryRunCommand_ends (config : Config) (line : String) (limit : Nat) :
    (tryRunCommand config line limit).Yields fun result deeds =>
      result = none ∧ deeds = [⟨.acquire (some limit), false⟩] ∨ ∃ outcome way tenure,
        result = some outcome ∧
        deeds = ⟨.acquire (some limit), true⟩ :: (tenure ++ [⟨.release, ()⟩]) ∧
        Ending config line limit way outcome tenure := by
  intro granted
  cases granted with
  | false => exact .inl ⟨rfl, rfl⟩
  | true =>
      refine (admitted_ends config line limit).bind ?_
      rintro outcome tenure ⟨way, hending⟩ _
      exact .inr ⟨outcome, way, tenure, rfl, rfl, hending⟩

/-! ## What a command leaves alone -/

/-- Whatever the state, to do this changes neither what the parties of the session share nor the
connection to the debugger. -/
def Inert (deed : Deed interface) : Prop :=
  ∀ reaction state after, State.perform reaction deed.action state = some (after, deed.answer) →
    after.core = state.core ∧ after.wire = state.wire

/-- The event that is published. -/
def notice? : Deed interface → Option Event
  | ⟨.publish event, _⟩ => some event
  | _ => none

/-- The events that were published, first to last. -/
def notices (deeds : List (Deed interface)) : List Event :=
  deeds.filterMap notice?

variable {way : Way} {outcome : Outcome} {deeds : List (Deed interface)}

/-- A command that was not admitted changes nothing. -/
theorem Ending.inert (h : Ending config line limit way outcome deeds)
    (hway : way = .exited ∨ way = .rejected) : ∀ deed ∈ deeds, Inert deed := by
  have hexited (exited : Bool) : Inert ⟨.isExited, exited⟩ := by
    intro reaction state after hperform
    cases hperform
    exact ⟨rfl, rfl⟩
  have hdeclined : Inert ⟨.claimTarget, false⟩ := by
    intro reaction state after hperform
    simp only [State.perform, State.askCore, Core.claimTarget] at hperform
    split at hperform <;> cases hperform
    exact ⟨rfl, rfl⟩
  have hpublished (event : Event) : Inert ⟨.publish event, ()⟩ := by
    intro reaction state after hperform
    cases hperform
    exact ⟨rfl, rfl⟩
  cases h with
  | exited => simpa using hexited true
  | rejected => simpa using ⟨hexited false, hdeclined, hpublished _⟩
  | unwritten | waited => simp at hway

theorem Ending.notices_of_exited (h : Ending config line limit .exited outcome deeds) :
    outcome = .sessionExited ∧ notices deeds = [] := by
  cases h
  exact ⟨rfl, rfl⟩

theorem Ending.notices_of_rejected (h : Ending config line limit .rejected outcome deeds) :
    outcome = .targetRunning ∧ notices deeds = [rejection line] := by
  cases h
  exact ⟨rfl, rfl⟩

/-- A command is announced only when its line was written. -/
theorem Ending.not_commandSent (h : Ending config line limit way outcome deeds)
    (hway : way ≠ .waited) (text : String) : .commandSent text ∉ notices deeds := by
  cases h with
  | exited => simp [notices, notice?]
  | rejected => simp [notices, notice?, rejection]
  | unwritten =>
      cases hmode : config.asyncMode <;> simp [notices, notice?, admission, retreat, hmode]
  | waited => exact absurd rfl hway

/-- What a command leaves alone that ends in a way, and what it publishes. -/
structure Discreet (line : String) (way : Way) (outcome : Outcome)
    (deeds : List (Deed interface)) : Prop where
  inert : way = .exited ∨ way = .rejected → ∀ deed ∈ deeds, Inert deed
  exited : way = .exited → outcome = .sessionExited ∧ notices deeds = []
  rejected : way = .rejected → outcome = .targetRunning ∧ notices deeds = [rejection line]
  unsent : way ≠ .waited → ∀ text, .commandSent text ∉ notices deeds

theorem Ending.discreet (h : Ending config line limit way outcome deeds) :
    Discreet line way outcome deeds where
  inert hway := h.inert hway
  exited hway := (hway ▸ h).notices_of_exited
  rejected hway := (hway ▸ h).notices_of_rejected
  unsent hway := h.not_commandSent hway

/-- A command looks for the end of the session before everything else. -/
theorem Ending.exists_cons (h : Ending config line limit way outcome deeds) :
    ∃ exited rest, deeds = ⟨.isExited, exited⟩ :: rest := by
  cases h with
  | exited => exact ⟨true, [], rfl⟩
  | rejected | unwritten | waited => exact ⟨false, _, rfl⟩

/-- A command claims the target right after its look for the end of the session, or not at all. -/
theorem Ending.not_claim (h : Ending config line limit way outcome deeds) (granted : Bool) :
    ⟨.claimTarget, granted⟩ ∉ deeds.drop 2 := by
  cases h with
  | exited | rejected => simp
  | unwritten | waited => cases hmode : config.asyncMode <;> simp [admission, retreat, hmode]

theorem Ending.eq_of_claim (h : Ending config line limit way outcome deeds)
    {first rest : List (Deed interface)} {granted : Bool}
    (hdeeds : deeds = first ++ ⟨.claimTarget, granted⟩ :: rest) :
    ∃ exited, first = [⟨.isExited, exited⟩] := by
  obtain ⟨exited, others, hlook⟩ := h.exists_cons
  have hnever := h.not_claim granted
  rw [hlook] at hdeeds hnever
  rcases first with _ | ⟨look, _ | ⟨second, more⟩⟩
  · cases hdeeds
  · cases hdeeds
    exact ⟨exited, rfl⟩
  · cases hdeeds
    simp at hnever

end Ends

end DebugBridge.Session
