import DebugBridge.Bridge.Server
import DebugBridge.Proofs.Session.Flight

/-!
# Runs of a bridge

A run begins with a fresh bridge and goes on turn by turn: a caller comes with an errand, a caller
does something or gives up waiting, something happens to a session, or a session is made elsewhere.
The history of a bridge holds what its callers did and what happened to its sessions; `historyOf`
is the part of it that concerns one session.

## Strategy

What happens to a session without a caller is a turn of that session taken aside, so that all that
is known about such turns can be used.

## Main statements

* `Chronicle.change_of_turn?`: all that a turn can do to a bridge.
* `Possible.accounted`: what a caller has done so far leads from its program to what is left of it.
-/

namespace DebugBridge.Bridge

open Session (Plan Host)

/-! ## Histories -/

/-- Something that happened to a session without a caller of the bridge. -/
structure Incident where
  id : Nat
  occurrence : Session.Occurrence

/-- Something that happened to a bridge. -/
abbrev Occurrence := DebugBridge.Occurrence interface Nat Incident

/-- Something happened to a session. -/
@[match_pattern]
abbrev Occurrence.within (id : Nat) (occurrence : Session.Occurrence) : Occurrence :=
  .happened ⟨id, occurrence⟩

/-- What happened to a bridge, first to last. -/
abbrev History := List Occurrence

theorem mem_deedsOf_did {n caller : Nat} {deed done : Deed interface} :
    deed ∈ deedsOf n ([.did caller done] : History) ↔ caller = n ∧ done = deed := by
  simp [deedsOf, DebugBridge.Occurrence.deedOf?]

@[simp]
theorem deedsOf_within (caller id : Nat) (occurrences : Session.History) :
    deedsOf caller (occurrences.map (Occurrence.within id)) = [] := by
  simp [deedsOf, DebugBridge.Occurrence.deedOf?]

/-- What a deed does on a session. -/
def deedOn? (id : Nat) : Deed interface → Option (Deed Session.interface)
  | ⟨.on other action, answer⟩ => if other = id then some ⟨action, answer⟩ else none
  | _ => none

theorem deedOn?_eq_none {deed : Deed interface} (h : ∀ id action, deed.action ≠ .on id action)
    (id : Nat) : deedOn? id deed = none := by
  obtain ⟨action, answer⟩ := deed
  cases action with
  | on other action => exact absurd rfl (h other action)
  | _ => rfl

/-- A deed on a session as one on the bridge. -/
def deedOn (id : Nat) (deed : Deed Session.interface) : Deed interface :=
  ⟨.on id deed.action, deed.answer⟩

theorem filterMap_deedOn? (id other : Nat) (deeds : List (Deed Session.interface)) :
    (deeds.filterMap fun deed => deedOn? other (deedOn id deed)) =
      if id = other then deeds else [] := by
  by_cases hne : id = other <;> simp [deedOn, deedOn?, hne]

/-- What an occurrence is for a session. -/
def Occurrence.on? (id : Nat) : Occurrence → Option Session.Occurrence
  | .did caller deed => (deedOn? id deed).map (.did (.caller caller))
  | .gaveUp caller deed => (deedOn? id deed).map (.gaveUp (.caller caller))
  | .within other occurrence => if other = id then some occurrence else none

/-- What happened to a session, first to last. -/
def historyOf (id : Nat) (history : History) : Session.History :=
  history.filterMap (Occurrence.on? id)

@[simp]
theorem historyOf_append (id : Nat) (history more : History) :
    historyOf id (history ++ more) = historyOf id history ++ historyOf id more := by
  simp [historyOf]

@[simp]
theorem historyOf_did (id caller : Nat) (deed : Deed interface) :
    historyOf id [.did caller deed] = ((deedOn? id deed).map (.did (.caller caller))).toList := by
  cases h : deedOn? id deed <;> simp [historyOf, Occurrence.on?, h]

@[simp]
theorem historyOf_gaveUp (id caller : Nat) (deed : Deed interface) :
    historyOf id [.gaveUp caller deed] =
      ((deedOn? id deed).map (.gaveUp (.caller caller))).toList := by
  cases h : deedOn? id deed <;> simp [historyOf, Occurrence.on?, h]

@[simp]
theorem historyOf_within (id : Nat) (occurrences : Session.History) :
    historyOf id (occurrences.map (Occurrence.within id)) = occurrences := by
  simp [historyOf, Occurrence.on?, Function.comp_def]

theorem historyOf_within_ne {id other : Nat} (h : other ≠ id) (occurrences : Session.History) :
    historyOf id (occurrences.map (Occurrence.within other)) = [] := by
  simp [historyOf, Occurrence.on?, h]

/-- What is noted when something happens to a bridge without a caller. -/
def note (state : State) : Happening → History
  | .on id happening =>
      match state.members[id]? with
      | some member => (Session.note member.session happening).map (Occurrence.within id)
      | none => []
  | .forward _ | .adopt _ _ => []

theorem deedsOf_note (state : State) (happening : Happening) (n : Nat) :
    deedsOf n (note state happening) = [] := by
  cases happening with
  | forward | adopt => rfl
  | on id happening =>
      simp only [note]
      split
      · exact deedsOf_within ..
      · rfl

/-- The annals of a bridge. -/
abbrev annals (isFile : String → Bool) : Annals (arena isFile) Nat Incident where
  caller n := n
  note := note
  caller_inj := id
  deedsOf_note := deedsOf_note

/-! ## Turns -/

/-- What a caller of a bridge comes for. -/
inductive Errand
  | line (text : String)
  /-- the input has ended -/
  | shutDown
  /-- a session that was made elsewhere is to be put in place -/
  | attach (id : Nat)
  /-- something is to be done on a session by those who made it -/
  | operation (id : Nat) (plan : Plan) (asked : Session.Operation)

/-- The program of an errand; the answer is the line that goes back to the host, if any. -/
def Errand.program (surroundings : Surroundings) : Errand → Activity (Option String)
  | line text => serve surroundings text
  | shutDown => do
      Bridge.shutDown
      return none
  | attach id => do
      Bridge.attach id
      return none
  | operation id plan asked => do
      let _ ← onSession id (asked.program plan)
      return none

/-- What can come next in a run. -/
abbrev Turn := DebugBridge.Turn Errand Happening

/-- A caller comes with an errand. -/
@[match_pattern]
abbrev Turn.errand (e : Errand) : Turn :=
  .request e

/-- A session is made elsewhere. -/
@[match_pattern]
abbrev Turn.adopt (plan : Plan) (host : Option Host) : Turn :=
  .happen (.adopt plan host)

variable {isFile : String → Bool}

/-- What has come of a run. -/
abbrev Chronicle (isFile : String → Bool) :=
  DebugBridge.Chronicle (arena isFile) Nat Incident Errand (Option String)

namespace Chronicle

/-- Nothing has come of a run of a fresh bridge yet. -/
instance : EmptyCollection (Chronicle isFile) :=
  ⟨{ system := ⟨({} : State), []⟩ }⟩

/-- The errands, in the order of the callers. -/
abbrev errands (c : Chronicle isFile) : List Errand :=
  c.requests

/-- The bridge. -/
abbrev state (c : Chronicle isFile) : State :=
  c.system.state

/-- The host of a session. -/
def hostOf (c : Chronicle isFile) (member : Member) : Host :=
  member.host.getD (c.state.host isFile)

/-- A session taken aside, where nobody calls it. -/
def aside (c : Chronicle isFile) (id : Nat) (member : Member) :
    Session.Chronicle (c.hostOf member) Unit Unit :=
  { system := ⟨member.session, []⟩
    history := historyOf id c.history }

/-- The chronicle after one more turn, if that is possible. -/
abbrev turn? (surroundings : Surroundings) (c : Chronicle isFile) (turn : Turn) :
    Option (Chronicle isFile) :=
  DebugBridge.Chronicle.turn? (annals isFile) (Errand.program surroundings) c turn

/-- The chronicle after some more turns, if they are possible. -/
abbrev turns? (surroundings : Surroundings) (c : Chronicle isFile) (turns : List Turn) :
    Option (Chronicle isFile) :=
  DebugBridge.Chronicle.turns? (annals isFile) (Errand.program surroundings) c turns

end Chronicle

/-- What can come of a run from a fresh bridge. -/
inductive Possible (surroundings : Surroundings) : Chronicle isFile → Prop
  | fresh : Possible surroundings { system := ⟨({} : State), []⟩ }
  | turn {c next : Chronicle isFile} (h : Possible surroundings c) (turn : Turn)
      (hturn : c.turn? surroundings turn = some next) : Possible surroundings next

variable {surroundings : Surroundings} {c next : Chronicle isFile}

theorem Possible.turns (h : Possible surroundings c) (turns : List Turn)
    (hturns : c.turns? surroundings turns = some next) : Possible surroundings next :=
  holds_of_foldlM hturns (Possible surroundings) h fun _ hturn hnow => hnow.turn _ hturn

/-! ## What a turn can do -/

/-- A change of a chronicle by one turn. -/
inductive Change (surroundings : Surroundings) (c : Chronicle isFile) : Chronicle isFile → Prop
  | errand (e : Errand) : Change surroundings c
      { c with
        requests := c.errands ++ [e]
        system := ⟨c.state, c.system.callers ++ [e.program surroundings]⟩ }
  | act {caller : Nat} {reaction : Option Fault} {action : Action}
      {rest : action.Answer → Activity (Option String)} {state : State} {answer : action.Answer}
      (hcaller : c.system.callers[caller]? = some (.act action rest))
      (hperform : c.state.perform reaction action = some (state, answer)) :
      Change surroundings c
        { c with
          system := ⟨state, c.system.callers.set caller (rest answer)⟩
          history := c.history ++ [.did caller ⟨action, answer⟩] }
  | expire {caller : Nat} {reaction : Option Fault} {action : Action}
      {rest : action.Answer → Activity (Option String)} {state : State} {answer : action.Answer}
      (hcaller : c.system.callers[caller]? = some (.act action rest))
      (hwait : c.state.perform reaction action = none)
      (hgiveUp : c.state.giveUp reaction action = some (state, answer)) :
      Change surroundings c
        { c with
          system := ⟨state, c.system.callers.set caller (rest answer)⟩
          history := c.history ++ [.gaveUp caller ⟨action, answer⟩] }
  | within {id : Nat} {member : Member} {happening : Session.Happening}
      {after : Session.Chronicle (c.hostOf member) Unit Unit} {occurrences : Session.History}
      (hmember : c.state.members[id]? = some member)
      (hturn : (c.aside id member).turn? .done (.happen happening) = some after)
      (hhistory : after.history = historyOf id c.history ++ occurrences) (pushed : List Push) :
      Change surroundings c
        { c with
          system :=
            ⟨{ c.state.onSession id (fun _ => after.session) with pushed }, c.system.callers⟩
          history := c.history ++ occurrences.map (Occurrence.within id) }
  | forward {id : Nat} (pushed : List Push) : Change surroundings c
      { c with
        system :=
          ⟨{ c.state with
              members := c.state.members.modify id fun m => { m with forwarded := m.forwarded + 1 }
              pushed }, c.system.callers⟩ }
  | adopt (plan : Plan) (host : Option Host) : Change surroundings c
      { c with
        system :=
          ⟨{ c.state with members := c.state.members ++ [.create plan host] }, c.system.callers⟩ }

namespace Chronicle

private theorem change_of_within {id : Nat} {happening : Session.Happening}
    (h : c.turn? surroundings (.happen (.on id happening)) = some next) :
    Change surroundings c next := by
  obtain ⟨state, hhappen, rfl⟩ := Chronicle.happen_of_turn? h
  obtain ⟨member, hmember, hhappen⟩ := Option.bind_eq_some_iff.mp hhappen
  obtain ⟨session, hsession, hhappen⟩ := Option.bind_eq_some_iff.mp hhappen
  cases hhappen
  have hsession : member.session.happen (c.hostOf member) happening = some session := hsession
  have hturn : (c.aside id member).turn? .done (.happen happening) =
      some { c.aside id member with
        system := ⟨session, []⟩
        history := historyOf id c.history ++ Session.note member.session happening } :=
    Chronicle.turn?_happen hsession
  have hnote : (annals isFile).note c.state (.on id happening) =
      (Session.note member.session happening).map (Occurrence.within id) := by
    simp only [note, hmember]
  rw [hnote]
  exact .within hmember hturn rfl _

theorem change_of_turn? {turn : Turn} (h : c.turn? surroundings turn = some next) :
    Change surroundings c next := by
  cases turn with
  | request e =>
      cases h
      simpa [DebugBridge.Turn.request?, DebugBridge.Chronicle.occurrences] using Change.errand e
  | act caller reaction =>
      obtain ⟨action, rest, state, answer, hcaller, hperform, rfl⟩ := Chronicle.act_of_turn? h
      exact .act hcaller hperform
  | expire caller reaction =>
      obtain ⟨action, rest, state, answer, hcaller, hwait, hgiveUp, rfl⟩ :=
        Chronicle.expire_of_turn? h
      exact .expire hcaller hwait hgiveUp
  | happen happening =>
      cases happening with
      | on id happening => exact change_of_within h
      | adopt plan host =>
          obtain ⟨state, hhappen, rfl⟩ := Chronicle.happen_of_turn? h
          cases hhappen
          simpa [note] using Change.adopt plan host
      | forward id =>
          obtain ⟨state, hhappen, rfl⟩ := Chronicle.happen_of_turn? h
          obtain ⟨member, hmember, hhappen⟩ := Option.bind_eq_some_iff.mp hhappen
          obtain ⟨event, hevent, hhappen⟩ := Option.bind_eq_some_iff.mp hhappen
          cases hhappen
          simpa [note] using Change.forward _

end Chronicle

/-- What callers have done leads from the programs of their errands to what is left of them. -/
theorem Possible.accounted (h : Possible surroundings c) :
    Accounted (Errand.program surroundings) c.errands c.system.callers
      fun i => deedsOf i c.history := by
  induction h with
  | fresh => exact .empty fun _ => rfl
  | turn h turn hturn ih => exact ih.turn hturn

/-- What a caller has done that is over is all that its errand takes. -/
theorem Possible.leads_of_value (h : Possible surroundings c) {n : Nat} {value : Option String}
    (hvalue : c.system.value? n = some value) :
    ∃ errand, c.errands[n]? = some errand ∧
      (errand.program surroundings).Leads (deedsOf n c.history) (.done value) :=
  h.accounted.leads n _ (System.value?_eq_some_iff.mp hvalue)

/-! ## Turns one after the other -/

/-- The debugger of a session prints a line, and it is read. -/
def Turn.prints (id : Nat) (text : String) : List Turn :=
  .happen (.on id (.print .output (.line text))) ::
    List.replicate 5 (.happen (.on id (.advance (.reader .output))))

/-- Surroundings without environment variables. -/
def Surroundings.bare : Surroundings :=
  ⟨fun _ => none, fun _ => ""⟩

end DebugBridge.Bridge
