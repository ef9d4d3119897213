import DebugBridge.Proofs.Bridge.Assembly
import DebugBridge.Proofs.Session.Answers

/-!
# The sessions of a bridge

A bridge makes sessions and lets many callers at them.  Each of its sessions, by itself, goes
through what a session may go through: its callers take the courses of commands and deliver nothing.
So all that is known about the life of a session holds of those of a bridge.

## Strategy

A caller is on a leg of its own on every session (`Legs`).  The program of each errand takes the
courses on all of them apart, because it is put together from programs of sessions.  What a turn
does to one session is a change of that session taken aside.

## Main statements

* `Errand.conducts`: the errands take the courses of commands.
* `Possible.lived`: what has happened to a session of a bridge is a life of it.
-/

namespace DebugBridge.Bridge

open Session (Leg Lived)

/-! ## The courses of commands -/

/-- Where a caller is in its commands, for each session. -/
abbrev Legs := Nat → Leg

namespace Legs

def idle : Legs := fun _ => .idle

def Permits (legs : Legs) : Action → Prop
  | .on id action => (legs id).Permits False action
  | _ => True

def after (legs : Legs) : (action : Action) → action.Answer → Legs
  | .on id action, answer => fun other =>
      if id = other then (legs id).after action answer else legs other
  | _, _ => legs

end Legs

/-- The answers that callers are prepared for. -/
def Admits : (action : Action) → action.Answer → Prop
  | .on _ action, answer => Session.Admits (fun _ => True) action answer
  | _, _ => True

/-- The courses of commands, on each session apart. -/
abbrev courses : Protocol interface where
  Stage := Legs
  Permits := Legs.Permits
  Admits := Admits
  after := Legs.after

/-- A program of a session takes its course there, and none on the other sessions. -/
theorem onSession_follows {α : Type} {program : Session.Activity α} {id : Nat} {legs : Legs}
    {ends : α → Leg → Prop}
    (h : program.Follows (Session.course False fun _ => True) (legs id) ends) :
    (onSession id program).Follows courses legs fun value after =>
      ends value (after id) ∧ ∀ other, id ≠ other → after other = legs other := by
  induction program generalizing legs with
  | done value => exact ⟨h, fun _ _ => rfl⟩
  | act action next ih =>
      refine ⟨h.1, fun answer hanswer => ?_⟩
      have hid : legs.after (.on id action) answer id = (legs id).after action answer := if_pos rfl
      have hnext : (next answer).Follows (Session.course False fun _ => True)
          (legs.after (.on id action) answer id) ends := by
        rw [hid]
        exact h.2 answer hanswer
      refine (ih answer hnext).mono ?_
      intro value last hlast
      exact ⟨hlast.1, fun other hne => (hlast.2 other hne).trans (if_neg hne)⟩

theorem Errand.conducts (surroundings : Surroundings) (errand : Errand) :
    (errand.program surroundings).Follows courses .idle fun _ legs => legs = .idle := by
  refine (errand.assembled surroundings).follows courses (· = .idle) ?_ ?_ rfl
  · rintro _ action rfl haction
    cases action with
    | on id action =>
        have hplain : action.IsPlain := haction
        refine ⟨Leg.permits_of_not_steers hplain.not_steers
          (fun outcome h => absurd h (hplain.not_deliver outcome)) _, fun answer => ?_⟩
        funext other
        simp [Legs.after, Leg.after_of_not_steers hplain.not_steers, Legs.idle]
    | _ => exact ⟨trivial, fun _ => rfl⟩
  · rintro γ _ id config ends program rfl hprogram
    refine (onSession_follows (hprogram.conducts fun _ _ => trivial)).mono ?_
    rintro value legs ⟨⟨hid, -⟩, hothers⟩
    funext other
    by_cases hne : id = other
    · exact hne ▸ hid
    · exact hothers other hne

/-- On a session, the legs of a caller follow from what it has done there. -/
theorem stageAfter_courses (legs : Legs) (deeds : List (Deed interface)) (id : Nat) :
    courses.stageAfter legs deeds id =
      (Session.course True fun _ => True).stageAfter (legs id) (deeds.filterMap (deedOn? id)) := by
  induction deeds generalizing legs with
  | nil => rfl
  | cons deed rest ih =>
      rw [Protocol.stageAfter_cons, ih]
      obtain ⟨action, answer⟩ := deed
      cases action with
      | on other action =>
          by_cases hne : other = id
          · subst hne
            simp [deedOn?, Legs.after]
          · simp [deedOn?, Legs.after, hne]
      | _ => rfl

/-! ## The state of a session -/

def State.session? (state : State) (id : Nat) : Option Session :=
  state.members[id]?.map Member.session

section State

variable {state : State} {id : Nat}

theorem session?_onSession (change : Session → Session) (other : Nat) :
    (state.onSession id change).session? other =
      if id = other then (state.session? other).map change else state.session? other := by
  simp only [State.session?, State.onSession, List.getElem?_modify, Option.map_map]
  split <;> cases state.members[other]? <;> rfl

theorem session?_append (state : State) (member : Member) :
    ({ state with members := state.members ++ [member] } : State).session? = fun other =>
      if state.members.length = other then some member.session else state.session? other := by
  funext other
  show ((state.members ++ [member])[other]?).map Member.session = _
  rw [State.session?]
  rcases Nat.lt_trichotomy other state.members.length with hlt | rfl | hgt
  · rw [List.getElem?_append_left hlt, if_neg (by omega)]
  · simp
  · rw [if_neg (by omega), List.getElem?_eq_none (by simp; omega),
      List.getElem?_eq_none (by omega)]

theorem session?_forward (state : State) (id : Nat) (pushed : List Push) :
    ({ state with
        members := state.members.modify id fun m => { m with forwarded := m.forwarded + 1 }
        pushed } : State).session? = state.session? := by
  funext other
  simp only [State.session?, List.getElem?_modify]
  split <;> cases state.members[other]? <;> rfl

/-- What is done on a session changes its state only. -/
theorem withSession_eq_some {α : Type} {next : State} {answer : α}
    {act : Session.State → Option (Session.State × α)}
    (h : state.withSession id (fun session => session.withState (act session.state)) =
      some (next, answer)) :
    ∃ session after, state.session? id = some session ∧ act session.state = some (after, answer) ∧
      next = state.onSession id fun _ => { session with state := after } := by
  obtain ⟨member, hmember, h⟩ := Option.bind_eq_some_iff.mp h
  obtain ⟨⟨session, other⟩, hact, h⟩ := Option.bind_eq_some_iff.mp h
  cases h
  obtain ⟨after, hafter, rfl⟩ := Session.withState_eq_some hact
  exact ⟨member.session, after, by simp [State.session?, hmember], hafter, rfl⟩

theorem session?_onSession_of_some {session next : Session} (h : state.session? id = some session) :
    (state.onSession id fun _ => next).session? =
      fun other => if id = other then some next else state.session? other := by
  funext other
  rw [session?_onSession]
  split
  · subst other
    rw [h, Option.map_some]
  · rfl

/-- Only actions on sessions and the making of a session have an effect on sessions. -/
theorem perform_session? {reaction : Option Fault} {action : Action} {next : State}
    {answer : action.Answer} (h : state.perform reaction action = some (next, answer))
    (hcreate : ∀ plan, action ≠ .create plan) (hon : ∀ id act, action ≠ .on id act) :
    next.session? = state.session? := by
  cases action with
  | create plan => exact absurd rfl (hcreate plan)
  | on id act => exact absurd rfl (hon id act)
  | place id =>
      simp only [State.perform] at h
      split at h <;> cases h <;> rfl
  | remember breakpoint =>
      cases h
      unfold State.remember
      split <;> rfl
  | _ =>
      cases h
      rfl

end State

/-! ## What callers have done -/

theorem admits_of_perform {reaction : Option Fault} {action : Action} {state next : State}
    {answer : action.Answer} (h : state.perform reaction action = some (next, answer)) :
    Admits action answer := by
  cases action with
  | on id action =>
      obtain ⟨session, after, -, hperform, -⟩ := withSession_eq_some h
      have heffect : Session.Effect session.state (.did (.caller 0) ⟨action, answer⟩) after :=
        .did hperform
      exact heffect.admits (deedOf?_did ..)
  | _ => trivial

theorem perform_eq_none_of_on {reaction : Option Fault} {id : Nat} {action : Session.Action}
    {state : State} {session : Session} (hsession : state.session? id = some session)
    (hwait : state.perform reaction (.on id action) = none) :
    session.state.perform reaction action = none := by
  obtain ⟨member, hmember, rfl⟩ := Option.map_eq_some_iff.mp hsession
  cases hperform : member.session.state.perform reaction action with
  | none => rfl
  | some result =>
      simp [State.perform, State.withSession, hmember, Session.withState, hperform] at hwait

theorem admits_of_giveUp {reaction : Option Fault} {action : Action} {state next : State}
    {answer : action.Answer} (hwait : state.perform reaction action = none)
    (h : state.giveUp reaction action = some (next, answer)) : Admits action answer := by
  cases action with
  | on id action =>
      obtain ⟨session, after, hsession, hgiveUp, -⟩ := withSession_eq_some h
      have heffect : Session.Effect session.state (.gaveUp (.caller 0) ⟨action, answer⟩) after :=
        .gaveUp (perform_eq_none_of_on hsession hwait) hgiveUp
      exact heffect.admits (deedOf?_gaveUp ..)
  | _ => cases h

section Runs

variable {isFile : String → Bool} {surroundings : Surroundings} {c next : Chronicle isFile}

/-- What callers have done was answered as they are prepared for. -/
theorem Possible.admits (h : Possible surroundings c) (n : Nat) :
    ∀ deed ∈ deedsOf n c.history, Admits deed.action deed.answer := by
  induction h with
  | fresh => simp [deedsOf]
  | turn h turn hturn ih =>
      cases Chronicle.change_of_turn? hturn with
      | errand | forward | adopt => exact ih
      | within => simpa using ih
      | act hcaller hperform =>
          rw [deedsOf_append, List.forall_mem_append]
          refine ⟨ih, fun deed hdeed => ?_⟩
          obtain ⟨-, rfl⟩ := by simpa [deedsOf, Occurrence.deedOf?] using hdeed
          exact admits_of_perform hperform
      | expire hcaller hwait hgiveUp =>
          rw [deedsOf_append, List.forall_mem_append]
          refine ⟨ih, fun deed hdeed => ?_⟩
          obtain ⟨-, rfl⟩ := by simpa [deedsOf, Occurrence.deedOf?] using hdeed
          exact admits_of_giveUp hwait hgiveUp

/-- What happens to a session taken aside is done by none of the callers. -/
theorem deedsOf_of_aside {id : Nat} {member : Member} {happening : Session.Happening}
    {after : Session.Chronicle (c.hostOf member) Unit Unit} {occurrences : Session.History}
    (hturn : (c.aside id member).turn? .done (.happen happening) = some after)
    (hhistory : after.history = historyOf id c.history ++ occurrences) (n : Nat) :
    deedsOf (.caller n) occurrences = [] := by
  obtain ⟨session, -, rfl⟩ := Chronicle.happen_of_turn? hturn
  obtain rfl := List.append_cancel_left hhistory
  exact Session.deedsOf_note ..

theorem deedsOf_historyOf_did (id n caller : Nat) (deed : Deed interface) :
    deedsOf (.caller n) (historyOf id [.did caller deed]) =
      (deedsOf n ([.did caller deed] : History)).filterMap (deedOn? id) := by
  by_cases hne : caller = n <;> cases hdeed : deedOn? id deed <;>
    simp [hdeed, hne, deedsOf_did_ne, deedsOf_did_ne]

theorem deedsOf_historyOf_gaveUp (id n caller : Nat) (deed : Deed interface) :
    deedsOf (.caller n) (historyOf id [.gaveUp caller deed]) =
      (deedsOf n ([.gaveUp caller deed] : History)).filterMap (deedOn? id) := by
  by_cases hne : caller = n <;> cases hdeed : deedOn? id deed <;>
    simp [hdeed, hne, deedsOf_gaveUp_ne, deedsOf_gaveUp_ne]

/-- What a caller has done to a session is what it has done on that session. -/
theorem Possible.deedsOf_historyOf (h : Possible surroundings c) (id n : Nat) :
    deedsOf (.caller n) (historyOf id c.history) =
      (deedsOf n c.history).filterMap (deedOn? id) := by
  induction h with
  | fresh => rfl
  | turn h turn hturn ih =>
      cases Chronicle.change_of_turn? hturn with
      | errand | forward | adopt => exact ih
      | @within other member happening after occurrences hmember haside hhistory pushed =>
          by_cases hne : other = id
          · subst hne
            simpa [deedsOf_of_aside haside hhistory n] using ih
          · simpa [historyOf_within_ne hne] using ih
      | act =>
          rw [historyOf_append, deedsOf_append, deedsOf_append, List.filterMap_append, ih,
            deedsOf_historyOf_did]
      | expire =>
          rw [historyOf_append, deedsOf_append, deedsOf_append, List.filterMap_append, ih,
            deedsOf_historyOf_gaveUp]

/-- What a caller does next on a session is permitted on its leg there. -/
theorem Possible.legOf_permits (h : Possible surroundings c) {n id : Nat}
    {action : Session.Action} {rest : action.Answer → Activity (Option String)}
    (hcaller : c.system.callers[n]? = some (.act (.on id action) rest)) :
    (Session.legOf (.caller n) (historyOf id c.history)).Permits False action := by
  have hpermits : Legs.Permits (courses.stageAfter .idle (deedsOf n c.history)) (.on id action) :=
    h.accounted.permits (fun e => ⟨_, e.conducts surroundings⟩) hcaller (h.admits n)
  rw [Session.legOf, h.deedsOf_historyOf]
  exact stageAfter_courses .idle _ id ▸ hpermits

/-! ## Lives -/

/-- What has happened to each session is a life of it, and to others nothing has happened. -/
structure Lives (session? : Nat → Option Session) (history : History) : Prop where
  lived : ∀ id session, session? id = some session → Lived False session (historyOf id history)
  absent : ∀ id, session? id = none → historyOf id history = []

namespace Lives

variable {session? : Nat → Option Session} {history more : History} {id : Nat}

theorem quiet (h : Lives session? history) (hmore : ∀ id, historyOf id more = []) :
    Lives session? (history ++ more) := by
  refine ⟨fun id session hsession => ?_, fun id hsession => ?_⟩
  · rw [historyOf_append, hmore, List.append_nil]
    exact h.lived id session hsession
  · rw [historyOf_append, hmore, List.append_nil]
    exact h.absent id hsession

theorem create {state : State} (h : Lives state.session? history) (plan : Session.Plan)
    (host : Option Session.Host) :
    Lives ({ state with members := state.members ++ [.create plan host] } : State).session?
      history := by
  have hnew : Session.IsNew (Member.create plan host).session :=
    ⟨rfl, rfl, fun channel => by cases channel <;> rfl, rfl⟩
  rw [session?_append]
  refine ⟨fun other session hother => ?_, fun other hother => ?_⟩
  · split at hother
    · cases hother
      -- nothing can have happened to it before
      rename_i heq
      have habsent := h.absent other (by simp [State.session?, ← heq])
      exact habsent ▸ .new hnew
    · exact h.lived other session hother
  · split at hother
    · cases hother
    · exact h.absent other hother

theorem change {host : Session.Host} {ρ α : Type} {program : ρ → Session.Activity α}
    {c next : Session.Chronicle host ρ α} (h : Lives session? history)
    (hid : session? id = some c.session) (hpast : c.history = historyOf id history)
    (hchange : Session.Change program c next)
    (hpermits : ∀ occurrence n deed, next.history = c.history ++ [occurrence] →
      occurrence.deedOf? (.caller n) = some deed →
      (Session.legOf (.caller n) c.history).Permits False deed.action)
    (hmore : next.history = c.history ++ historyOf id more)
    (hothers : ∀ other, id ≠ other → historyOf other more = []) :
    Lives (fun other => if id = other then some next.session else session? other)
      (history ++ more) := by
  refine ⟨fun other session hother => ?_, fun other hother => ?_⟩
  · split at hother
    · cases hother
      subst other
      have hlived := h.lived id c.session hid
      rw [← hpast] at hlived
      rw [historyOf_append, ← hpast, ← hmore]
      exact hlived.change hchange hpermits
    · rename_i hne
      rw [historyOf_append, hothers other hne, List.append_nil]
      exact h.lived other session hother
  · split at hother
    · cases hother
    · rename_i hne
      rw [historyOf_append, hothers other hne, List.append_nil]
      exact h.absent other hother

end Lives

/-- A session that a caller is about to do something on. -/
def called (session : Session) (past : Session.History) (caller : Nat) (action : Session.Action) :
    Session.Chronicle Session.Host.blind Unit Unit :=
  { system := ⟨session, List.replicate caller (.done ()) ++ [.act action fun _ => .done ()]⟩
    history := past }

/-- What a caller does on a session is a change of it. -/
theorem change_of_called {session : Session} (past : Session.History) {caller : Nat}
    {action : Session.Action} {answer : action.Answer} {occurrence : Session.Occurrence}
    {after : Session.State} (heffect : Session.Effect session.state occurrence after)
    (hdeed : occurrence.deedOf? (.caller caller) = some ⟨action, answer⟩) :
    Session.Change (fun _ : Unit => .done ()) (called session past caller action)
      { system := ⟨{ session with state := after },
          (called session past caller action).system.callers.set caller (.done ())⟩
        history := past ++ [occurrence] } := by
  have hcaller : (called session past caller action).system.callers[caller]? =
      some (.act action fun _ => .done ()) := by
    simp [called]
  cases heffect with
  | printed => cases hdeed
  | did hperform =>
      rw [DebugBridge.Occurrence.deedOf?] at hdeed
      split at hdeed <;> cases hdeed
      rename_i hactor
      exact hactor ▸ .act hcaller hperform
  | gaveUp hwait hgiveUp =>
      rw [DebugBridge.Occurrence.deedOf?] at hdeed
      split at hdeed <;> cases hdeed
      rename_i hactor
      exact hactor ▸ .expire hcaller hwait hgiveUp

theorem Lives.of_caller (h : Lives c.state.session? c.history) (hc : Possible surroundings c)
    {caller id : Nat} {action : Session.Action} {rest : action.Answer → Activity (Option String)}
    (answer : action.Answer) {session : Session} {occurrence : Session.Occurrence}
    {after : Session.State} {more : History}
    (hcaller : c.system.callers[caller]? = some (.act (.on id action) rest))
    (hsession : c.state.session? id = some session)
    (heffect : Session.Effect session.state occurrence after)
    (hdeed : ∀ n deed, occurrence.deedOf? (.caller n) = some deed ↔
      n = caller ∧ deed = ⟨action, answer⟩)
    (hmore : ∀ other, historyOf other more = if id = other then [occurrence] else []) :
    Lives (c.state.onSession id fun _ => { session with state := after }).session?
      (c.history ++ more) := by
  rw [session?_onSession_of_some hsession]
  have hchange :=
    change_of_called (historyOf id c.history) heffect ((hdeed caller _).mpr ⟨rfl, rfl⟩)
  refine h.change hsession rfl hchange ?_ (by simp [called, hmore]) fun other hne => by
    simp [hmore, hne]
  intro last n deed hlast hlastDeed
  obtain rfl := by simpa [called] using hlast
  obtain ⟨rfl, rfl⟩ := (hdeed n deed).mp hlastDeed
  exact hc.legOf_permits hcaller

theorem Lives.of_act (h : Lives c.state.session? c.history) (hc : Possible surroundings c)
    {caller : Nat} {reaction : Option Fault} {action : Action}
    {rest : action.Answer → Activity (Option String)} {state : State} {answer : action.Answer}
    (hcaller : c.system.callers[caller]? = some (.act action rest))
    (hperform : c.state.perform reaction action = some (state, answer)) :
    Lives state.session? (c.history ++ [.did caller ⟨action, answer⟩]) := by
  cases action with
  | on id action =>
      obtain ⟨session, after, hsession, hact, rfl⟩ := withSession_eq_some hperform
      have heffect : Session.Effect session.state (.did (.caller caller) ⟨action, answer⟩) after :=
        .did hact
      refine h.of_caller hc answer hcaller hsession heffect ?_ ?_
      · simp [DebugBridge.Occurrence.deedOf?, eq_comm]
      · intro other
        by_cases hne : id = other <;> simp [deedOn?, hne]
  | create plan =>
      cases hperform
      exact (h.create plan none).quiet fun id => by simp [deedOn?]
  | _ =>
      rw [perform_session? hperform (by simp) (by simp)]
      exact h.quiet fun id => by simp [deedOn?]

theorem Lives.of_giveUp (h : Lives c.state.session? c.history) (hc : Possible surroundings c)
    {caller : Nat} {reaction : Option Fault} {action : Action}
    {rest : action.Answer → Activity (Option String)} {state : State} {answer : action.Answer}
    (hcaller : c.system.callers[caller]? = some (.act action rest))
    (hwait : c.state.perform reaction action = none)
    (hgiveUp : c.state.giveUp reaction action = some (state, answer)) :
    Lives state.session? (c.history ++ [.gaveUp caller ⟨action, answer⟩]) := by
  cases action with
  | on id action =>
      obtain ⟨session, after, hsession, hact, rfl⟩ := withSession_eq_some hgiveUp
      have heffect :
          Session.Effect session.state (.gaveUp (.caller caller) ⟨action, answer⟩) after :=
        .gaveUp (perform_eq_none_of_on hsession hwait) hact
      refine h.of_caller hc answer hcaller hsession heffect ?_ ?_
      · simp [DebugBridge.Occurrence.deedOf?, eq_comm]
      · intro other
        by_cases hne : id = other <;> simp [deedOn?, hne]
  | _ => cases hgiveUp

theorem Possible.lives (h : Possible surroundings c) : Lives c.state.session? c.history := by
  induction h with
  | fresh => exact ⟨fun id session hsession => by simp [State.session?] at hsession, fun _ _ => rfl⟩
  | @turn c next h turn hturn ih =>
      cases Chronicle.change_of_turn? hturn with
      | errand => exact ih
      | act hcaller hperform => exact ih.of_act h hcaller hperform
      | expire hcaller hwait hgiveUp => exact ih.of_giveUp h hcaller hwait hgiveUp
      | adopt plan host => exact ih.create plan host
      | @forward id pushed =>
          have hsame := session?_forward c.state id pushed
          exact hsame ▸ ih
      | @within id member happening after occurrences hmember haside hhistory pushed =>
          have hsession : c.state.session? id = some (c.aside id member).session := by
            simp [State.session?, hmember, Chronicle.aside]
          have hchange := Session.Chronicle.change_of_turn? haside
          show Lives (c.state.onSession id fun _ => after.session).session? _
          rw [session?_onSession_of_some hsession]
          refine ih.change hsession rfl hchange ?_ ?_ fun other hne => historyOf_within_ne hne _
          -- there are no callers
          · intro occurrence n deed hlast hdeed
            obtain ⟨action, rest, hcaller, -⟩ := hchange.exists_caller hlast hdeed
            simp [Chronicle.aside] at hcaller
          · rw [historyOf_within]
            exact hhistory

/-- What has happened to a session of a bridge is a life of it. -/
theorem Possible.lived (h : Possible surroundings c) {id : Nat} {session : Session}
    (hsession : c.state.session? id = some session) :
    Lived False session (historyOf id c.history) :=
  h.lives.lived id session hsession

/-- Nothing has happened to a session that was not made. -/
theorem Possible.historyOf_eq_nil (h : Possible surroundings c) {id : Nat}
    (hid : c.state.members.length ≤ id) : historyOf id c.history = [] :=
  h.lives.absent id (by simp [State.session?, hid])

end Runs

end DebugBridge.Bridge
