import DebugBridge.Proofs.History
import DebugBridge.Proofs.Interleaving

/-!
# Runs

A run goes on turn by turn: a caller comes with a request, a caller does something or gives up
waiting, or something happens that is no action of a caller.  The turns are in any order.  A
`Chronicle` is what has come of a run so far: the callers in their arena, and the history of
everything that was done there.  What the history notes of things that happen by themselves is up
to the `Annals` of the arena.

## Main statements

* `Chronicle.act_of_turn?`, `Chronicle.expire_of_turn?`, `Chronicle.exists_deed_of_turn?`: what a
  turn of a caller comes to.
* `Chronicle.leads_of_turns?`: what a caller does in some turns leads on in its program.
* `Accounted.turn`: what callers have done leads from the programs of their requests to what is left
  of them.
* `Chronicle.exists_moved`: a caller that can conclude its action can take a turn.
-/

namespace DebugBridge

/-- What can come next in a run. -/
inductive Turn (ρ Happening : Type)
  /-- a caller comes with a request -/
  | request (r : ρ)
  /-- a caller performs its next action -/
  | act (caller : Nat) (reaction : Option Fault)
  /-- a caller that has to wait gives up -/
  | expire (caller : Nat) (reaction : Option Fault)
  /-- something happens that is no action of a caller -/
  | happen (happening : Happening)

variable {I : Interface} {arena : Arena I} {Actor Event ρ α : Type} [DecidableEq Actor]

namespace Turn

/-- The move of a turn; a request is carried out by its program. -/
def move (program : ρ → Program I α) : Turn ρ arena.Happening → Move arena α
  | request r => .enter (program r)
  | act caller reaction => .act caller reaction
  | expire caller reaction => .expire caller reaction
  | happen happening => .happen happening

/-- The request of a turn. -/
def request? {Happening : Type} : Turn ρ Happening → Option ρ
  | request r => some r
  | _ => none

/-- A caller that does several things one after the other. -/
def acts {Happening : Type} (caller times : Nat) : List (Turn ρ Happening) :=
  List.replicate times (.act caller none)

/-- The turn is one of a caller. -/
def IsOf {Happening : Type} (n : Nat) : Turn ρ Happening → Prop
  | act caller _ | expire caller _ => caller = n
  | request _ | happen _ => False

end Turn

/-- What a program does next, if it is answered. -/
def Program.deed? {σ : Type} (answer? : (action : I.Action) → Option (σ × I.Answer action)) :
    Program I α → Option (Deed I)
  | .done _ => none
  | .act action _ => (answer? action).map fun (_, answer) => ⟨action, answer⟩

/-- How the history of an arena is written. -/
structure Annals (arena : Arena I) (Actor Event : Type) [DecidableEq Actor] where
  /-- the callers among those who act -/
  caller : Nat → Actor
  /-- what is noted when something happens -/
  note : arena.State → arena.Happening → List (Occurrence I Actor Event)
  caller_inj : ∀ {m n}, caller m = caller n → m = n
  /-- what happens is not done by callers -/
  deedsOf_note : ∀ state happening n, deedsOf (caller n) (note state happening) = []

/-- What has come of a run. -/
structure Chronicle (arena : Arena I) (Actor Event ρ α : Type) where
  /-- the requests, in the order of the callers -/
  requests : List ρ := []
  system : System arena α
  history : List (Occurrence I Actor Event) := []

namespace Chronicle

/-- What a turn adds to the history. -/
def occurrences (annals : Annals arena Actor Event) (c : Chronicle arena Actor Event ρ α) :
    Turn ρ arena.Happening → List (Occurrence I Actor Event)
  | .request _ => []
  | .act caller reaction =>
      ((c.system.callers[caller]?.bind
        (Program.deed? (arena.perform reaction · c.system.state))).map
          (.did (annals.caller caller))).toList
  | .expire caller reaction =>
      ((c.system.callers[caller]?.bind
        (Program.deed? (arena.giveUp reaction · c.system.state))).map
          (.gaveUp (annals.caller caller))).toList
  | .happen happening => annals.note c.system.state happening

/-- The chronicle after one more turn, if that is possible. -/
def turn? (annals : Annals arena Actor Event) (program : ρ → Program I α)
    (c : Chronicle arena Actor Event ρ α) (turn : Turn ρ arena.Happening) :
    Option (Chronicle arena Actor Event ρ α) :=
  (c.system.step? (turn.move program)).map fun system =>
    { requests := c.requests ++ turn.request?.toList
      system
      history := c.history ++ c.occurrences annals turn }

/-- The chronicle after some more turns, if they are possible. -/
def turns? (annals : Annals arena Actor Event) (program : ρ → Program I α)
    (c : Chronicle arena Actor Event ρ α) (turns : List (Turn ρ arena.Happening)) :
    Option (Chronicle arena Actor Event ρ α) :=
  turns.foldlM (turn? annals program) c

variable {annals : Annals arena Actor Event} {program : ρ → Program I α}
  {c next : Chronicle arena Actor Event ρ α} {n : Nat} {reaction : Option Fault}

/-! ## Turns of callers -/

section Notes

variable {action : I.Action} {rest : I.Answer action → Program I α} {state : arena.State}
  {answer : I.Answer action}

theorem occurrences_act (hcaller : c.system.callers[n]? = some (.act action rest))
    (hperform : arena.perform reaction action c.system.state = some (state, answer)) :
    c.occurrences annals (.act n reaction) = [.did (annals.caller n) ⟨action, answer⟩] := by
  simp [occurrences, hcaller, Program.deed?, hperform]

theorem occurrences_expire (hcaller : c.system.callers[n]? = some (.act action rest))
    (hgiveUp : arena.giveUp reaction action c.system.state = some (state, answer)) :
    c.occurrences annals (.expire n reaction) = [.gaveUp (annals.caller n) ⟨action, answer⟩] := by
  simp [occurrences, hcaller, Program.deed?, hgiveUp]

end Notes

/-- What has come of a turn of a caller that acts. -/
theorem act_of_turn? (h : c.turn? annals program (.act n reaction) = some next) :
    ∃ action rest state answer, c.system.callers[n]? = some (.act action rest) ∧
      arena.perform reaction action c.system.state = some (state, answer) ∧
      next = { c with
        system := ⟨state, c.system.callers.set n (rest answer)⟩
        history := c.history ++ [.did (annals.caller n) ⟨action, answer⟩] } := by
  obtain ⟨system, hstep, rfl⟩ := Option.map_eq_some_iff.mp h
  obtain ⟨action, rest, state, answer, hcaller, hperform, rfl⟩ := System.step?_act hstep
  refine ⟨action, rest, state, answer, hcaller, hperform, ?_⟩
  simp [occurrences_act hcaller hperform, Turn.request?]

/-- What has come of a turn of a caller that gives up. -/
theorem expire_of_turn? (h : c.turn? annals program (.expire n reaction) = some next) :
    ∃ action rest state answer, c.system.callers[n]? = some (.act action rest) ∧
      arena.perform reaction action c.system.state = none ∧
      arena.giveUp reaction action c.system.state = some (state, answer) ∧
      next = { c with
        system := ⟨state, c.system.callers.set n (rest answer)⟩
        history := c.history ++ [.gaveUp (annals.caller n) ⟨action, answer⟩] } := by
  obtain ⟨system, hstep, rfl⟩ := Option.map_eq_some_iff.mp h
  obtain ⟨action, rest, state, answer, hcaller, hwait, hgiveUp, rfl⟩ := System.step?_expire hstep
  refine ⟨action, rest, state, answer, hcaller, hwait, hgiveUp, ?_⟩
  simp [occurrences_expire hcaller hgiveUp, Turn.request?]

/-- A turn of a caller is a deed of it. -/
theorem exists_deed_of_turn? {turn : Turn ρ arena.Happening}
    (hturn : c.turn? annals program turn = some next) (hof : turn.IsOf n) :
    ∃ action rest answer occurrence, c.system.callers[n]? = some (.act action rest) ∧
      occurrence.deedOf? (annals.caller n) = some ⟨action, answer⟩ ∧
      next.requests = c.requests ∧ next.system.callers = c.system.callers.set n (rest answer) ∧
      next.history = c.history ++ [occurrence] := by
  cases turn with
  | request | happen => exact hof.elim
  | act caller reaction =>
      obtain rfl : caller = n := hof
      obtain ⟨action, rest, state, answer, hcaller, -, rfl⟩ := act_of_turn? hturn
      exact ⟨action, rest, answer, _, hcaller, deedOf?_did .., rfl, rfl, rfl⟩
  | expire caller reaction =>
      obtain rfl : caller = n := hof
      obtain ⟨action, rest, state, answer, hcaller, -, -, rfl⟩ := expire_of_turn? hturn
      exact ⟨action, rest, answer, _, hcaller, deedOf?_gaveUp .., rfl, rfl, rfl⟩

section Moves

variable {action : I.Action} {rest : I.Answer action → Program I α} {state : arena.State}
  {answer : I.Answer action}

theorem turn?_act (hcaller : c.system.callers[n]? = some (.act action rest))
    (hperform : arena.perform reaction action c.system.state = some (state, answer)) :
    c.turn? annals program (.act n reaction) = some
      { c with
        system := ⟨state, c.system.callers.set n (rest answer)⟩
        history := c.history ++ [.did (annals.caller n) ⟨action, answer⟩] } := by
  simp [turn?, Turn.move, System.step?_act_of_perform hcaller hperform,
    occurrences_act hcaller hperform, Turn.request?]

theorem turn?_expire (hcaller : c.system.callers[n]? = some (.act action rest))
    (hwait : arena.perform reaction action c.system.state = none)
    (hgiveUp : arena.giveUp reaction action c.system.state = some (state, answer)) :
    c.turn? annals program (.expire n reaction) = some
      { c with
        system := ⟨state, c.system.callers.set n (rest answer)⟩
        history := c.history ++ [.gaveUp (annals.caller n) ⟨action, answer⟩] } := by
  simp [turn?, Turn.move, System.step?_expire_of_giveUp hcaller hwait hgiveUp,
    occurrences_expire hcaller hgiveUp, Turn.request?]

/-- A caller that need not wait does not give up. -/
theorem turn?_expire_of_perform (hcaller : c.system.callers[n]? = some (.act action rest))
    (hperform : arena.perform reaction action c.system.state = some (state, answer)) :
    c.turn? annals program (.expire n reaction) = none := by
  simp [turn?, Turn.move, System.step?_expire_of_perform hcaller hperform]

end Moves

theorem turn?_happen {happening : arena.Happening} {state : arena.State}
    (h : arena.happen happening c.system.state = some state) :
    c.turn? annals program (.happen happening) = some
      { c with
        system := ⟨state, c.system.callers⟩
        history := c.history ++ annals.note c.system.state happening } := by
  simp [turn?, Turn.move, System.step?, h, occurrences, Turn.request?]

/-- What has come of a turn of a caller: it has done something, and nobody else has. -/
structure Moved (annals : Annals arena Actor Event) (c : Chronicle arena Actor Event ρ α) (n : Nat)
    {action : I.Action} (rest : I.Answer action → Program I α)
    (next : Chronicle arena Actor Event ρ α) : Prop where
  goesOn : ∃ answer, next.system.callers = c.system.callers.set n (rest answer)
  requests : next.requests = c.requests
  others : ∀ actor, annals.caller n ≠ actor → deedsOf actor next.history = deedsOf actor c.history

section Moved

variable {action : I.Action} {rest : I.Answer action → Program I α}

theorem moved_of_turn? {turn : Turn ρ arena.Happening}
    (hturn : c.turn? annals program turn = some next) (hof : turn.IsOf n)
    (hcaller : c.system.callers[n]? = some (.act action rest)) : Moved annals c n rest next := by
  obtain ⟨_, _, answer, occurrence, hacts, hdeed, hrequests, hcallers, hhistory⟩ :=
    exists_deed_of_turn? hturn hof
  cases hcaller.symm.trans hacts
  refine ⟨⟨answer, hcallers⟩, hrequests, fun actor hne => ?_⟩
  rw [hhistory, deedsOf_append_of_none (deedOf?_eq_none hdeed hne)]

theorem Moved.getElem?_eq (h : Moved annals c n rest next)
    (hcaller : c.system.callers[n]? = some (.act action rest)) :
    ∃ answer, next.system.callers[n]? = some (rest answer) := by
  obtain ⟨answer, hcallers⟩ := h.goesOn
  refine ⟨answer, ?_⟩
  rw [hcallers, List.getElem?_set_self (List.getElem?_eq_some_iff.mp hcaller).1]

theorem Moved.getElem?_ne (h : Moved annals c n rest next) {m : Nat} (hne : n ≠ m) :
    next.system.callers[m]? = c.system.callers[m]? := by
  obtain ⟨answer, hcallers⟩ := h.goesOn
  rw [hcallers, List.getElem?_set_ne hne]

/-- A caller whose action can be concluded, by doing it or by giving up, can take a turn. -/
theorem exists_moved (hcaller : c.system.callers[n]? = some (.act action rest))
    (hconclude : (∃ state answer,
        arena.perform none action c.system.state = some (state, answer)) ∨
      arena.perform none action c.system.state = none ∧
        ∃ state answer, arena.giveUp none action c.system.state = some (state, answer)) :
    ∃ turn next, turn.IsOf n ∧ c.turn? annals program turn = some next ∧
      Moved annals c n rest next := by
  rcases hconclude with ⟨state, answer, hperform⟩ | ⟨hwait, state, answer, hgiveUp⟩
  · obtain ⟨next, hturn⟩ : ∃ next, c.turn? annals program (.act n none) = some next :=
      ⟨_, turn?_act hcaller hperform⟩
    exact ⟨.act n none, next, rfl, hturn, moved_of_turn? hturn rfl hcaller⟩
  · obtain ⟨next, hturn⟩ : ∃ next, c.turn? annals program (.expire n none) = some next :=
      ⟨_, turn?_expire hcaller hwait hgiveUp⟩
    exact ⟨.expire n none, next, rfl, hturn, moved_of_turn? hturn rfl hcaller⟩

end Moved

/-! ## What callers have done -/

theorem turns?_singleton {turn : Turn ρ arena.Happening} :
    c.turns? annals program [turn] = c.turn? annals program turn := by
  simp [turns?]

theorem requests_of_turn? {turn : Turn ρ arena.Happening}
    (hturn : c.turn? annals program turn = some next) :
    next.requests = c.requests ++ turn.request?.toList := by
  obtain ⟨system, -, rfl⟩ := Option.map_eq_some_iff.mp hturn
  rfl

theorem requests_of_turns? {turns : List (Turn ρ arena.Happening)}
    (hturns : c.turns? annals program turns = some next) :
    next.requests = c.requests ++ turns.filterMap Turn.request? := by
  induction turns generalizing c with
  | nil =>
      cases hturns
      simp
  | cons turn rest ih =>
      obtain ⟨middle, hturn, hrest⟩ := foldlM_cons_eq_some hturns
      rw [ih hrest, requests_of_turn? hturn, List.append_assoc]
      cases hrequest : turn.request? <;> simp [hrequest]

/-- The history goes on. -/
theorem exists_history_of_turns? {turns : List (Turn ρ arena.Happening)}
    (hturns : c.turns? annals program turns = some next) :
    ∃ since, next.history = c.history ++ since := by
  refine holds_of_foldlM hturns (fun later => ∃ since, later.history = c.history ++ since)
    ⟨[], (List.append_nil _).symm⟩ ?_
  rintro middle later turn - hturn ⟨since, hsince⟩
  obtain ⟨system, -, rfl⟩ := Option.map_eq_some_iff.mp hturn
  exact ⟨since ++ middle.occurrences annals turn, by rw [hsince, List.append_assoc]⟩

/-- What has come of a turn in which something happens. -/
theorem happen_of_turn? {happening : arena.Happening}
    (h : c.turn? annals program (.happen happening) = some next) :
    ∃ state, arena.happen happening c.system.state = some state ∧
      next = { c with
        system := ⟨state, c.system.callers⟩
        history := c.history ++ annals.note c.system.state happening } := by
  obtain ⟨system, hstep, rfl⟩ := Option.map_eq_some_iff.mp h
  obtain ⟨state, hhappen, rfl⟩ := Option.map_eq_some_iff.mp hstep
  exact ⟨state, hhappen, by simp [occurrences, Turn.request?]⟩

/-- A caller does nothing in a turn that is not one of its own. -/
theorem deedsOf_of_turn? {turn : Turn ρ arena.Happening}
    (hturn : c.turn? annals program turn = some next) (hnot : ¬ turn.IsOf n) :
    deedsOf (annals.caller n) next.history = deedsOf (annals.caller n) c.history := by
  cases turn with
  | request r =>
      cases hturn
      simp [occurrences]
  | happen happening =>
      obtain ⟨state, -, rfl⟩ := happen_of_turn? hturn
      rw [deedsOf_append, annals.deedsOf_note, List.append_nil]
  | act caller reaction | expire caller reaction =>
      obtain ⟨_, _, _, occurrence, -, hdeed, -, -, hhistory⟩ := exists_deed_of_turn? hturn rfl
      have hne : annals.caller caller ≠ annals.caller n := fun heq => hnot (annals.caller_inj heq)
      rw [hhistory, deedsOf_append_of_none (deedOf?_eq_none hdeed hne)]

/-- What a caller does in a turn leads from what was left of its program to what is left then. -/
theorem leads_of_turn? {turn : Turn ρ arena.Happening} {rest : Program I α}
    (hturn : c.turn? annals program turn = some next)
    (hcaller : c.system.callers[n]? = some rest) :
    ∃ since left, next.history = c.history ++ since ∧ next.system.callers[n]? = some left ∧
      rest.Leads (deedsOf (annals.caller n) since) left := by
  have hlt := (List.getElem?_eq_some_iff.mp hcaller).1
  cases turn with
  | request r =>
      cases hturn
      exact ⟨[], rest, rfl, (List.getElem?_append_left hlt).trans hcaller, .start _⟩
  | happen happening =>
      obtain ⟨state, -, rfl⟩ := happen_of_turn? hturn
      refine ⟨_, rest, rfl, hcaller, ?_⟩
      rw [annals.deedsOf_note]
      exact .start _
  | act caller reaction | expire caller reaction =>
      obtain ⟨action, following, answer, occurrence, hacts, hdeed, -, hcallers, hhistory⟩ :=
        exists_deed_of_turn? hturn rfl
      by_cases hself : caller = n
      · subst hself
        cases hcaller.symm.trans hacts
        refine ⟨[occurrence], following answer, hhistory, ?_, ?_⟩
        · rw [hcallers, List.getElem?_set_self hlt]
        · rw [deedsOf, List.filterMap_cons_some hdeed]
          exact Program.leads_act.mpr (.inr ⟨answer, [], rfl, .start _⟩)
      · have hnothing := deedOf?_eq_none hdeed fun heq => hself (annals.caller_inj heq)
        refine ⟨[occurrence], rest, hhistory, ?_, ?_⟩
        · rw [hcallers, List.getElem?_set_ne hself, hcaller]
        · rw [deedsOf, List.filterMap_cons_none hnothing]
          exact .start _

/-- What a caller does in some turns leads from what was left of its program to what is left. -/
theorem leads_of_turns? {turns : List (Turn ρ arena.Happening)} {rest : Program I α}
    (hturns : c.turns? annals program turns = some next)
    (hcaller : c.system.callers[n]? = some rest) :
    ∃ since left, next.history = c.history ++ since ∧ next.system.callers[n]? = some left ∧
      rest.Leads (deedsOf (annals.caller n) since) left := by
  induction turns generalizing c rest with
  | nil =>
      cases hturns
      exact ⟨[], rest, (List.append_nil _).symm, hcaller, .start _⟩
  | cons turn others ih =>
      obtain ⟨middle, hturn, hothers⟩ := foldlM_cons_eq_some hturns
      obtain ⟨first, left, hfirst, hleft, hleads⟩ := leads_of_turn? hturn hcaller
      obtain ⟨since, last, hsince, hlast, hmore⟩ := ih hothers hleft
      refine ⟨first ++ since, last, by rw [hsince, hfirst, List.append_assoc], hlast, ?_⟩
      rw [deedsOf_append]
      exact hleads.trans hmore

/-- An answer stays, and who has got it does nothing more. -/
theorem rests_of_turns? {turns : List (Turn ρ arena.Happening)} {value : α}
    (hturns : c.turns? annals program turns = some next)
    (hvalue : c.system.value? n = some value) : next.system.value? n = some value ∧
      deedsOf (annals.caller n) next.history = deedsOf (annals.caller n) c.history := by
  have hdone := System.value?_eq_some_iff.mp hvalue
  obtain ⟨since, left, hsince, hleft, hleads⟩ := leads_of_turns? hturns hdone
  obtain ⟨hnothing, rfl⟩ := Program.leads_done.mp hleads
  refine ⟨System.value?_eq_some_iff.mpr hleft, ?_⟩
  rw [hsince, deedsOf_append, hnothing, List.append_nil]

theorem isSome_of_turns? {turns : List (Turn ρ arena.Happening)}
    (hturns : c.turns? annals program turns = some next) (hvalue : (c.system.value? n).isSome) :
    (next.system.value? n).isSome := by
  obtain ⟨value, hvalue⟩ := Option.isSome_iff_exists.mp hvalue
  exact Option.isSome_iff_exists.mpr ⟨value, (rests_of_turns? hturns hvalue).1⟩

end Chronicle

/-! ## Accounts -/

section Accounts

variable {annals : Annals arena Actor Event} {program : ρ → Program I α}
  {c next : Chronicle arena Actor Event ρ α}

/-- After a turn, too, what callers have done leads from the programs of their requests to what is
left of them. -/
theorem Accounted.turn {turn : Turn ρ arena.Happening}
    (h : Accounted program c.requests c.system.callers
      fun i => deedsOf (annals.caller i) c.history)
    (hturn : c.turn? annals program turn = some next) :
    Accounted program next.requests next.system.callers
      fun i => deedsOf (annals.caller i) next.history := by
  cases turn with
  | request r =>
      cases hturn
      simpa [Chronicle.occurrences, Turn.request?] using h.enter r
  | happen happening =>
      obtain ⟨state, -, rfl⟩ := Chronicle.happen_of_turn? hturn
      exact h.congr fun i => by rw [deedsOf_append, annals.deedsOf_note, List.append_nil]
  | act caller reaction | expire caller reaction =>
      obtain ⟨action, rest, answer, occurrence, hcaller, hdeed, hrequests, hcallers, hhistory⟩ :=
        Chronicle.exists_deed_of_turn? hturn rfl
      rw [hrequests, hcallers]
      refine h.act hcaller (by rw [hhistory, deedsOf_append_of_some hdeed]) fun i hi => ?_
      exact Chronicle.deedsOf_of_turn? hturn hi.symm

end Accounts

end DebugBridge
