import DebugBridge.Proofs.Session.Conduct

/-!
# The command in flight

At most one command holds the gate, and at most one is in flight: between the arming of the slot
and the return of the command.  What a command takes from the slot is the record that was delivered
last since it armed the slot, so that no record is taken twice.

## Strategy

What an actor has done tells on which leg of a command it is (`legOf`).  `Orderly` relates the gate
and the slot to the legs of all actors: at most one of them is on a leg other than `idle`, and while
it is in flight the slot holds the last delivery since it armed the slot.  Each occurrence preserves
this.

## Main statements

* `Lived.orderly`: the invariant, whatever company a session was in.
* `Lived.returns`: what a command returns.
* `Possible.lived`: a run is such a life of its session.
-/

namespace DebugBridge.Session

/-! ## Legs -/

/-- The leg on which an actor is, by what it has done. -/
def legOf (actor : Actor) (history : History) : Leg :=
  (course True fun _ => True).stageAfter .idle (deedsOf actor history)

@[simp]
theorem legOf_nil (actor : Actor) : legOf actor [] = .idle :=
  rfl

/-- Who has done nothing has not changed its leg. -/
theorem legOf_congr {actor : Actor} {history later : History}
    (h : deedsOf actor later = deedsOf actor history) :
    legOf actor later = legOf actor history := by
  rw [legOf, legOf, h]

@[simp]
theorem legOf_did (actor : Actor) (history : History) (deed : Deed interface) :
    legOf actor (history ++ [.did actor deed]) =
      (legOf actor history).after deed.action deed.answer := by
  simp [legOf]

@[simp]
theorem legOf_gaveUp (actor : Actor) (history : History) (deed : Deed interface) :
    legOf actor (history ++ [.gaveUp actor deed]) =
      (legOf actor history).after deed.action deed.answer := by
  simp [legOf]

@[simp]
theorem legOf_printed (actor : Actor) (history : History) (channel : Channel) (chunk : Chunk) :
    legOf actor (history ++ [.printed channel chunk]) = legOf actor history := by
  simp [legOf]

theorem legOf_did_ne {actor other : Actor} (h : other ≠ actor) (history : History)
    (deed : Deed interface) :
    legOf actor (history ++ [.did other deed]) = legOf actor history := by
  simp [legOf, deedsOf_did_ne h]

theorem legOf_gaveUp_ne {actor other : Actor} (h : other ≠ actor) (history : History)
    (deed : Deed interface) :
    legOf actor (history ++ [.gaveUp other deed]) = legOf actor history := by
  simp [legOf, deedsOf_gaveUp_ne h]

/-! ## Deliveries, lines and tickets -/

/-- Whether an action begins or ends the time for which a command is in flight. -/
def Action.Bounds : Action → Prop
  | arm | disarm | awaitResult _ _ _ => True
  | _ => False

/-- Whether a command begins or ends to be in flight. -/
def Occurrence.Bounds : Occurrence → Prop
  | .did _ deed => deed.action.Bounds
  | .gaveUp _ deed => deed.action.Bounds
  | .happened _ => False

/-- The record that an action delivers. -/
def Action.delivery? : Action → Option Outcome
  | deliver outcome => some outcome
  | _ => none

/-- The record that is delivered. -/
def Occurrence.delivery? : Occurrence → Option Outcome
  | .did _ deed => deed.action.delivery?
  | _ => none

/-- The records that were delivered, first to last. -/
def deliveries (history : History) : List Outcome :=
  history.filterMap Occurrence.delivery?

@[simp]
theorem deliveries_append (history more : History) :
    deliveries (history ++ more) = deliveries history ++ deliveries more := by
  simp [deliveries]

theorem deliveries_singleton (occurrence : Occurrence) :
    deliveries [occurrence] = occurrence.delivery?.toList := by
  unfold deliveries
  cases h : occurrence.delivery? <;> simp [h]

/-- The line that is written. -/
def Occurrence.line? : Occurrence → Option String
  | .did _ ⟨.write line, none⟩ => some line
  | _ => none

/-- The lines that were written, first to last. -/
def written (history : History) : List String :=
  history.filterMap Occurrence.line?

@[simp]
theorem written_append (history more : History) :
    written (history ++ more) = written history ++ written more := by
  simp [written]

theorem written_singleton (occurrence : Occurrence) :
    written [occurrence] = occurrence.line?.toList := by
  unfold written
  cases h : occurrence.line? <;> simp [h]

/-- The ticket with which the slot is armed. -/
def Occurrence.ticket? : Occurrence → Option Nat
  | .did _ ⟨.arm, ticket⟩ => some ticket
  | _ => none

/-- The tickets that were given out, first to last. -/
def tickets (history : History) : List Nat :=
  history.filterMap Occurrence.ticket?

/-! ## The invariant -/

/-- How many lines a command in flight has written. -/
def Leg.lines : Leg → Nat
  | sent _ => 1
  | _ => 0

/-- The slot holds what was delivered last since an actor armed it with a ticket, and so many lines
were written since, by that actor. -/
structure Airborne (slot : Slot) (actor : Actor) (ticket lines : Nat) (history : History) :
    Prop where
  armed : slot.armed = some ticket
  window : ∃ before since, history = before ++ .did actor ⟨.arm, ticket⟩ :: since ∧
    (∀ occurrence ∈ since, ¬ occurrence.Bounds) ∧
    slot.result = (deliveries since).getLast? ∧ (written since).length = lines ∧
    ∀ line ∈ written since, .did actor ⟨.write line, none⟩ ∈ since

/-- The slot is as an actor on a leg has left it. -/
def Slot.Matches (slot : Slot) (actor : Actor) (history : History) (leg : Leg) : Prop :=
  match leg.ticket? with
  | none => slot.armed = none
  | some ticket => Airborne slot actor ticket leg.lines history

/-- The gate and the slot are as the one command that holds the gate has left them. -/
inductive Orderly (core : Core) (history : History) : Prop
  | free (hlegs : ∀ actor, legOf actor history = .idle) (hgate : core.gateHeld = false)
      (hslot : core.slot.armed = none)
  | held (holder : Actor) (hholder : legOf holder history ≠ .idle)
      (hothers : ∀ actor, holder ≠ actor → legOf actor history = .idle)
      (hgate : core.gateHeld = true)
      (hslot : core.slot.Matches holder history (legOf holder history))

theorem Airborne.append {slot next : Slot} {actor : Actor} {ticket lines : Nat}
    {history : History} (h : Airborne slot actor ticket lines history) {occurrence : Occurrence}
    (hbounds : ¬ occurrence.Bounds) (harmed : next.armed = slot.armed)
    (hresult : next.result = occurrence.delivery?.or slot.result)
    (hline : ∀ line ∈ occurrence.line?, occurrence = .did actor ⟨.write line, none⟩) :
    Airborne next actor ticket (lines + occurrence.line?.toList.length)
      (history ++ [occurrence]) := by
  obtain ⟨before, since, rfl, hquiet, hlast, hlines, hown⟩ := h.window
  refine ⟨harmed.trans h.armed, before, since ++ [occurrence], by simp, ?_, ?_, ?_, ?_⟩
  · simpa [or_imp, forall_and] using ⟨hquiet, hbounds⟩
  · rw [hresult, hlast, deliveries_append, deliveries_singleton]
    cases occurrence.delivery? <;> simp
  · rw [written_append, written_singleton, List.length_append, hlines]
  · intro line hmem
    rw [written_append, written_singleton, List.mem_append, Option.mem_toList] at hmem
    rw [List.mem_append, List.mem_singleton]
    exact hmem.imp (hown line) fun hmem => (hline line hmem).symm

theorem Slot.Matches.append {slot next : Slot} {actor : Actor} {history : History} {leg : Leg}
    (h : slot.Matches actor history leg) {occurrence : Occurrence}
    (hline : occurrence.line? = none) (hbounds : ¬ occurrence.Bounds)
    (harmed : next.armed = slot.armed)
    (hresult : slot.armed ≠ none → next.result = occurrence.delivery?.or slot.result) :
    next.Matches actor (history ++ [occurrence]) leg := by
  unfold Slot.Matches at h ⊢
  cases hticket : leg.ticket? with
  | none => exact harmed.trans (by simpa [hticket] using h)
  | some ticket =>
      have hair : Airborne slot actor ticket leg.lines history := by simpa [hticket] using h
      simpa [hline] using
        hair.append hbounds harmed (hresult (by simp [hair.armed])) (by simp [hline])

variable {core next : Core} {history : History} {occurrence : Occurrence} {actor : Actor}

/-- An actor that is not idle is the one that holds the gate. -/
theorem Orderly.of_not_idle (h : Orderly core history) (hleg : legOf actor history ≠ .idle) :
    (∀ other, actor ≠ other → legOf other history = .idle) ∧ core.gateHeld = true ∧
      core.slot.Matches actor history (legOf actor history) := by
  cases h with
  | free hlegs => exact absurd (hlegs actor) hleg
  | held holder hholder hothers hgate hslot =>
      obtain rfl : holder = actor := Classical.byContradiction fun hne => hleg (hothers actor hne)
      exact ⟨hothers, hgate, hslot⟩

/-- The order is kept when no actor comes to another leg. -/
theorem Orderly.keep (h : Orderly core history)
    (hlegs : ∀ actor, legOf actor (history ++ [occurrence]) = legOf actor history)
    (hline : occurrence.line? = none) (hbounds : ¬ occurrence.Bounds)
    (hgate : next.gateHeld = core.gateHeld) (harmed : next.slot.armed = core.slot.armed)
    (hresult : core.slot.armed ≠ none →
      next.slot.result = occurrence.delivery?.or core.slot.result) :
    Orderly next (history ++ [occurrence]) := by
  cases h with
  | free hidle hfree hslot =>
      exact .free (fun actor => (hlegs actor).trans (hidle actor)) (hgate.trans hfree)
        (harmed.trans hslot)
  | held holder hholder hothers hheld hslot =>
      refine .held holder (by rwa [hlegs])
        (fun actor hne => (hlegs actor).trans (hothers actor hne)) (hgate.trans hheld) ?_
      rw [hlegs]
      exact hslot.append hline hbounds harmed hresult

/-- The order is kept when an actor that holds the gate comes to a leg on which the slot is as
stated. -/
theorem Orderly.move (h : Orderly core history) {leg : Leg} (hbefore : legOf actor history ≠ .idle)
    (hafter : legOf actor (history ++ [occurrence]) = leg) (hleg : leg ≠ .idle)
    (hothers : ∀ other, actor ≠ other →
      legOf other (history ++ [occurrence]) = legOf other history)
    (hgate : next.gateHeld = core.gateHeld)
    (hslot : next.slot.Matches actor (history ++ [occurrence]) leg) :
    Orderly next (history ++ [occurrence]) := by
  obtain ⟨hidle, hheld, -⟩ := h.of_not_idle hbefore
  subst hafter
  exact .held actor hleg (fun other hne => (hothers other hne).trans (hidle other hne))
    (hgate.trans hheld) hslot

/-! ## The steps -/

/-- What does not belong to the course of a command leaves the gate alone, and the slot, except that
it may deliver a record to a command in flight. -/
theorem perform_of_not_steers {reaction : Option Fault} {action : Action} {state next : State}
    {answer : action.Answer} (haction : ¬ action.Steers)
    (hperform : state.perform reaction action = some (next, answer)) :
    next.core.gateHeld = state.core.gateHeld ∧
      next.core.slot.armed = state.core.slot.armed ∧
      next.core.slot.issued = state.core.slot.issued ∧
      (state.core.slot.armed ≠ none →
        next.core.slot.result = action.delivery?.or state.core.slot.result) := by
  rw [perform_core hperform]
  cases action with
  | acquire | release | arm | disarm | write | awaitResult => exact absurd trivial haction
  | deliver outcome =>
      cases harmed : state.core.slot.armed <;>
        simp [Action.onCore, Core.deliver, Action.delivery?, harmed]
  | beginStart | finishStart | markExited | claimTarget =>
      simp only [Action.onCore, Core.beginStart, Core.finishStart, Core.markExited,
        Core.claimTarget, Core.setRunning, Action.delivery?]
      split <;> simp
  | _ =>
      simp [Action.onCore, Action.delivery?, Core.markHeard, Core.setRunning, Core.noteResult,
        Core.applyExec]

theorem legOf_did_of_not_steers {action : Action} (haction : ¬ action.Steers)
    (answer : action.Answer) (other : Actor) :
    legOf other (history ++ [.did actor ⟨action, answer⟩]) = legOf other history := by
  by_cases hne : actor = other
  · subst hne
    rw [legOf_did, Leg.after_of_not_steers haction]
  · exact legOf_did_ne hne history _

theorem line?_of_not_steers {action : Action} (haction : ¬ action.Steers) (answer : action.Answer) :
    Occurrence.line? (.did actor ⟨action, answer⟩) = none := by
  cases action <;> first | rfl | exact absurd trivial haction

theorem not_bounds_of_not_steers {action : Action} (haction : ¬ action.Steers) :
    ¬ action.Bounds := by
  cases action <;> first | exact id | exact absurd trivial haction

section Steps

variable {state after : State} {reaction : Option Fault}

theorem Orderly.of_not_steers (h : Orderly state.core history) {action : Action}
    {answer : action.Answer} (haction : ¬ action.Steers)
    (hperform : state.perform reaction action = some (after, answer)) :
    Orderly after.core (history ++ [.did actor ⟨action, answer⟩]) := by
  obtain ⟨hgate, harmed, -, hresult⟩ := perform_of_not_steers haction hperform
  exact h.keep (legOf_did_of_not_steers haction answer) (line?_of_not_steers haction answer)
    (not_bounds_of_not_steers haction) hgate harmed hresult

theorem Orderly.of_acquire (h : Orderly state.core history) {limit : Option Nat} {granted : Bool}
    (hperform : state.perform reaction (.acquire limit) = some (after, granted)) :
    Orderly after.core (history ++ [.did actor ⟨.acquire limit, granted⟩]) := by
  obtain ⟨core, hacquire, hresult⟩ := Option.map_eq_some_iff.mp hperform
  cases hresult
  unfold Core.acquire? at hacquire
  split at hacquire
  · cases hacquire
  · rename_i hgate
    cases hacquire
    cases h with
    -- the gate would not have been granted
    | held holder hholder hothers hheld => exact absurd hheld hgate
    | free hlegs hfree hslot =>
        have hnew : legOf actor (history ++ [.did actor ⟨.acquire limit, true⟩]) = .admitted := by
          simp [Leg.after]
        refine .held actor (by simp [hnew]) (fun other hne => ?_) rfl ?_
        · rw [legOf_did_ne hne, hlegs other]
        · rw [hnew]
          exact hslot

theorem Orderly.of_release (h : Orderly state.core history) {answer : Unit}
    (hleg : legOf actor history = .admitted ∨ legOf actor history = .settled)
    (hperform : state.perform reaction .release = some (after, answer)) :
    Orderly after.core (history ++ [.did actor ⟨.release, answer⟩]) := by
  cases hperform
  have hbusy : legOf actor history ≠ .idle := by
    obtain hleg | hleg := hleg <;> simp [hleg]
  obtain ⟨hidle, -, hslot⟩ := h.of_not_idle hbusy
  refine .free (fun other => ?_) rfl ?_
  · by_cases hne : actor = other
    · subst hne
      simp [Leg.after]
    · rw [legOf_did_ne hne, hidle other hne]
  · obtain hleg | hleg := hleg <;> rw [hleg] at hslot <;> exact hslot

theorem Orderly.of_arm (h : Orderly state.core history) {ticket : Nat}
    (hleg : legOf actor history = .admitted)
    (hperform : state.perform reaction .arm = some (after, ticket)) :
    Orderly after.core (history ++ [.did actor ⟨.arm, ticket⟩]) := by
  cases hperform
  have hair : Airborne (state.core.arm.1).slot actor (state.core.slot.issued + 1) 0
      (history ++ [.did actor ⟨.arm, state.core.slot.issued + 1⟩]) :=
    { armed := rfl
      window := ⟨history, [], rfl, by simp, rfl, rfl, nofun⟩ }
  exact h.move (by simp [hleg]) (legOf_did ..) (by simp [Leg.after])
    (fun other hne => legOf_did_ne hne ..) rfl hair

theorem Orderly.of_disarm (h : Orderly state.core history) {answer : Unit} {ticket : Nat}
    (hleg : legOf actor history = .refused ticket)
    (hperform : state.perform reaction .disarm = some (after, answer)) :
    Orderly after.core (history ++ [.did actor ⟨.disarm, answer⟩]) := by
  cases hperform
  exact h.move (by simp [hleg]) (legOf_did ..) (by simp [Leg.after])
    (fun other hne => legOf_did_ne hne ..) rfl rfl

theorem Orderly.of_write (h : Orderly state.core history) {line : String} {fault : Option Fault}
    {ticket : Nat} (hleg : legOf actor history = .armed ticket)
    (hperform : state.perform reaction (.write line) = some (after, fault)) :
    Orderly after.core (history ++ [.did actor ⟨.write line, fault⟩]) := by
  have hbusy : legOf actor history ≠ .idle := by simp [hleg]
  have hair : Airborne state.core.slot actor ticket 0 history := by
    simpa [hleg, Slot.Matches, Leg.ticket?, Leg.lines] using (h.of_not_idle hbusy).2.2
  -- the time in flight goes on, whether or not the line was written
  have hbounds : ¬ Occurrence.Bounds (.did actor ⟨.write line, fault⟩) := id
  have hown : ∀ text ∈ Occurrence.line? (.did actor ⟨.write line, fault⟩),
      (.did actor ⟨.write line, fault⟩ : Occurrence) = .did actor ⟨.write text, none⟩ := by
    cases fault <;> simp [Occurrence.line?]
  have hair := hair.append hbounds rfl rfl hown
  have hcore : after.core = state.core := perform_core hperform
  rw [hcore]
  refine h.move hbusy (legOf_did ..) ?_ (fun other hne => legOf_did_ne hne ..) rfl ?_
  · cases fault <;> simp [hleg, Leg.after]
  · rw [hleg]
    cases fault <;> exact hair

theorem Orderly.of_awaitResult (h : Orderly state.core history) {ticket limit : Nat}
    {claimed : Bool} {outcome : Outcome} (hleg : legOf actor history = .sent ticket)
    (hperform : state.perform reaction (.awaitResult ticket limit claimed) =
      some (after, outcome)) :
    Orderly after.core (history ++ [.did actor ⟨.awaitResult ticket limit claimed, outcome⟩]) := by
  obtain ⟨⟨core, other⟩, hcollect, hresult⟩ := Option.map_eq_some_iff.mp hperform
  cases hresult
  have hcore : core.gateHeld = state.core.gateHeld ∧ core.slot.armed = none := by
    unfold Core.collect? at hcollect
    split at hcollect
    · cases hcollect
      exact ⟨rfl, rfl⟩
    · split at hcollect <;> cases hcollect
      exact ⟨rfl, rfl⟩
  exact h.move (by simp [hleg]) (legOf_did ..) (by simp [Leg.after])
    (fun other hne => legOf_did_ne hne ..) hcore.1 hcore.2

/-- Whatever is permitted and can be done preserves the order. -/
theorem Orderly.of_did (h : Orderly state.core history) {action : Action} {answer : action.Answer}
    (hpermits : (legOf actor history).Permits True action)
    (hperform : state.perform reaction action = some (after, answer)) :
    Orderly after.core (history ++ [.did actor ⟨action, answer⟩]) := by
  by_cases hsteers : action.Steers
  · cases action with
    | acquire limit => exact h.of_acquire hperform
    | release => exact h.of_release (Leg.permits_release.mp hpermits) hperform
    | arm => exact h.of_arm (Leg.permits_arm.mp hpermits) hperform
    | disarm =>
        obtain ⟨ticket, hleg⟩ := Leg.permits_disarm.mp hpermits
        exact h.of_disarm hleg hperform
    | write line =>
        obtain ⟨ticket, hleg⟩ := Leg.permits_write.mp hpermits
        exact h.of_write hleg hperform
    | awaitResult ticket limit claimed =>
        exact h.of_awaitResult (Leg.permits_awaitResult.mp hpermits) hperform
    | _ => exact absurd hsteers id
  · exact h.of_not_steers hsteers hperform

theorem Orderly.of_gaveUp (h : Orderly state.core history) {action : Action}
    {answer : action.Answer} (hpermits : (legOf actor history).Permits True action)
    (hgiveUp : state.giveUp reaction action = some (after, answer)) :
    Orderly after.core (history ++ [.gaveUp actor ⟨action, answer⟩]) := by
  have hothers : ∀ other, actor ≠ other →
      legOf other (history ++ [.gaveUp actor ⟨action, answer⟩]) = legOf other history :=
    fun other hne => legOf_gaveUp_ne hne ..
  by_cases hawait : ∃ ticket limit claimed, action = .awaitResult ticket limit claimed
  -- a command that gives up leaves the slot
  · obtain ⟨ticket, limit, claimed, rfl⟩ := hawait
    have hleg := Leg.permits_awaitResult.mp hpermits
    cases hgiveUp
    have hcore : (state.core.abandon claimed).gateHeld = state.core.gateHeld ∧
        (state.core.abandon claimed).slot.armed = none := by
      cases claimed <;> exact ⟨rfl, rfl⟩
    exact h.move (by simp [hleg]) (legOf_gaveUp ..) (by simp [Leg.after]) hothers hcore.1 hcore.2
  -- who gives up waiting for anything else leaves the gate and the slot alone
  · have hcore := giveUp_core hgiveUp fun ticket limit claimed heq =>
      hawait ⟨ticket, limit, claimed, heq⟩
    obtain ⟨hleg, hbounds⟩ : (legOf actor history).after action answer = legOf actor history ∧
        ¬ action.Bounds := by
      cases action with
      | awaitResult ticket limit claimed => exact absurd ⟨ticket, limit, claimed, rfl⟩ hawait
      | acquire limit =>
          cases limit <;> cases hgiveUp
          exact ⟨rfl, id⟩
      | awaitOutput | settle => exact ⟨rfl, id⟩
      | _ => cases hgiveUp
    have hsame : ∀ other,
        legOf other (history ++ [.gaveUp actor ⟨action, answer⟩]) = legOf other history := by
      intro other
      by_cases hne : actor = other
      · subst hne
        rw [legOf_gaveUp, hleg]
      · exact hothers other hne
    rw [hcore]
    exact h.keep hsame rfl hbounds rfl rfl fun _ => by simp [Occurrence.delivery?]

/-- Whatever is permitted and happens preserves the order. -/
theorem Orderly.of_effect (h : Orderly state.core history) (heffect : Effect state occurrence after)
    (hpermits : ∀ actor deed, occurrence.deedOf? actor = some deed →
      (legOf actor history).Permits True deed.action) :
    Orderly after.core (history ++ [occurrence]) := by
  cases heffect with
  | @did actor reaction action answer next hperform =>
      exact h.of_did (hpermits actor _ (deedOf?_did ..)) hperform
  | @gaveUp actor reaction action answer next hwait hgiveUp =>
      exact h.of_gaveUp (hpermits actor _ (deedOf?_gaveUp ..)) hgiveUp
  | printed hcore =>
      rw [hcore]
      exact h.keep (fun other => legOf_printed ..) rfl (by simp [Occurrence.Bounds]) rfl rfl
        fun _ => by simp [Occurrence.delivery?]

end Steps

/-! ## Lives -/

/-- A session to which nothing has happened yet. -/
structure IsNew (session : Session) : Prop where
  core : session.state.core = {}
  wire : session.state.wire = {}
  readerTask : ∀ channel, session.readerTask channel = .done ()
  watcherTask : session.watcherTask = .done ()

/-- What may have happened to a session: it has changed turn by turn, in whatever company, and its
callers have done what was permitted on their legs. -/
inductive Lived (callersDeliver : Prop) : Session → History → Prop
  | new {session : Session} (h : IsNew session) : Lived callersDeliver session []
  | change {host : Host} {ρ α : Type} {program : ρ → Activity α} {c next : Chronicle host ρ α}
      (h : Lived callersDeliver c.session c.history) (hchange : Change program c next)
      (hpermits : ∀ occurrence n deed, next.history = c.history ++ [occurrence] →
        occurrence.deedOf? (.caller n) = some deed →
        (legOf (.caller n) c.history).Permits callersDeliver deed.action) :
      Lived callersDeliver next.session next.history

namespace Lived

variable {callersDeliver : Prop} {session : Session} {past future : History}

theorem backgroundReports (h : Lived callersDeliver session history) :
    BackgroundReports session := by
  induction h with
  | new h => exact ⟨fun channel => h.readerTask channel ▸ trivial, h.watcherTask ▸ trivial⟩
  | change h hchange hpermits ih => exact ih.of_change hchange

/-- The parties in the background do not hold the gate. -/
theorem legOf_background (h : Lived callersDeliver session history)
    (hactor : ∀ n, actor ≠ .caller n) : legOf actor history = .idle := by
  induction h with
  | new => rfl
  | change h hchange hpermits ih =>
      rcases hchange.effect with ⟨hsame, -⟩ | ⟨occurrence, hlast, -⟩
      · rw [hsame]
        exact ih
      · rw [hlast]
        cases hdeed : occurrence.deedOf? actor with
        | none =>
            rw [legOf, deedsOf_append_of_none hdeed]
            exact ih
        | some deed =>
            have hreports := h.backgroundReports.reports hchange hlast hactor hdeed
            rw [legOf, deedsOf_append_of_some hdeed, Protocol.stageAfter_concat]
            exact (Leg.after_of_not_steers hreports.not_steers _ _).trans ih

/-- Whatever is done next is permitted, if it is so for callers. -/
theorem permits {host : Host} {ρ α : Type} {program : ρ → Activity α} {c next : Chronicle host ρ α}
    (h : Lived callersDeliver c.session c.history) (hchange : Change program c next)
    (hlast : next.history = c.history ++ [occurrence])
    (hcallers : ∀ n deed, occurrence.deedOf? (.caller n) = some deed →
      (legOf (.caller n) c.history).Permits callersDeliver deed.action)
    {deed : Deed interface} (hdeed : occurrence.deedOf? actor = some deed) :
    (legOf actor c.history).Permits True deed.action := by
  cases actor with
  | caller n => exact (hcallers n deed hdeed).mono
  | reader | watcher =>
      have hreports := h.backgroundReports.reports hchange hlast (by simp) hdeed
      exact Leg.permits_of_not_steers hreports.not_steers (fun _ _ => trivial) _

/-- The gate and the slot are in order. -/
theorem orderly (h : Lived callersDeliver session history) :
    Orderly session.state.core history := by
  induction h with
  | new h => exact .free (fun actor => rfl) (by rw [h.core]) (by rw [h.core])
  | change h hchange hpermits ih =>
      rcases hchange.effect with ⟨hsame, hcore⟩ | ⟨occurrence, hlast, heffect⟩
      · rw [hsame, hcore]
        exact ih
      · rw [hlast]
        exact ih.of_effect heffect fun actor deed =>
          h.permits hchange hlast fun n deed => hpermits occurrence n deed hlast

/-- The session before an occurrence, what the occurrence has done to it, and that it was
permitted. -/
theorem exists_effect (h : Lived callersDeliver session history)
    (hhistory : history = past ++ occurrence :: future) :
    ∃ (earlier : Session) (after : State), Lived callersDeliver earlier past ∧
      Effect earlier.state occurrence after ∧
      ∀ actor deed, occurrence.deedOf? actor = some deed →
        (legOf actor past).Permits True deed.action := by
  induction h generalizing future with
  | new => simp at hhistory
  | @change host ρ α program c next h hchange hpermits ih =>
      rcases hchange.effect with ⟨hsame, -⟩ | ⟨last, hlast, heffect⟩
      · exact ih (hsame ▸ hhistory)
      · rw [hlast] at hhistory
        -- either this was the last occurrence, or it lies further back
        rcases List.eq_nil_or_concat future with rfl | ⟨init, final, rfl⟩
        · obtain ⟨rfl, hoccurrence⟩ := List.append_inj' hhistory rfl
          cases hoccurrence
          exact ⟨c.session, _, h, heffect, fun actor deed =>
            h.permits hchange hlast fun n deed => hpermits _ n deed hlast⟩
        · rw [List.concat_eq_append, ← List.cons_append, ← List.append_assoc] at hhistory
          exact ih (List.append_inj' hhistory rfl).1

/-- A command that returns has armed the slot, and nobody else has since; its line was written
since, and it returns the last record that was delivered since, or that the session has ended. -/
theorem returns (h : Lived callersDeliver session history) {ticket limit : Nat} {claimed : Bool}
    {outcome : Outcome} (hhistory : history =
      past ++ .did actor ⟨.awaitResult ticket limit claimed, outcome⟩ :: future) :
    ∃ before since line, past = before ++ .did actor ⟨.arm, ticket⟩ :: since ∧
      (∀ occurrence ∈ since, ¬ occurrence.Bounds) ∧ written since = [line] ∧
      .did actor ⟨.write line, none⟩ ∈ since ∧
      ((deliveries since).getLast? = some outcome ∨
        deliveries since = [] ∧ outcome = .sessionExited) := by
  obtain ⟨earlier, after, hearlier, heffect, hpermits⟩ := h.exists_effect hhistory
  have hleg := Leg.permits_awaitResult.mp (hpermits actor _ (deedOf?_did ..))
  have hbusy : legOf actor past ≠ .idle := by simp [hleg]
  have hair : Airborne earlier.state.core.slot actor ticket 1 past := by
    simpa [hleg, Slot.Matches, Leg.ticket?, Leg.lines] using
      (hearlier.orderly.of_not_idle hbusy).2.2
  obtain ⟨before, since, hsplit, hquiet, hlast, hlines, hown⟩ := hair.window
  obtain ⟨line, hline⟩ := List.length_eq_one_iff.mp hlines
  refine ⟨before, since, line, hsplit, hquiet, hline, hown line (by simp [hline]), ?_⟩
  cases heffect with
  | did hperform =>
      obtain ⟨⟨core, other⟩, hcollect, hresult⟩ := Option.map_eq_some_iff.mp hperform
      cases hresult
      -- the slot is still armed for this command, so it holds the last delivery
      unfold Core.collect? at hcollect
      rw [if_pos hair.armed, hlast] at hcollect
      split at hcollect
      · rename_i heq
        cases hcollect
        exact .inl heq
      · rename_i heq
        split at hcollect <;> cases hcollect
        exact .inr ⟨List.getLast?_eq_none_iff.mp heq, rfl⟩

end Lived

/-! ## Runs -/

/-- The programs of all requests take the course of commands. -/
def Disciplined {ρ α : Type} (program : ρ → Activity α) : Prop :=
  ∀ r, ∃ ends, (program r).Follows (course True fun _ => True) .idle ends

theorem Operation.disciplined (plan : Plan) : Disciplined (Operation.program plan) :=
  fun r => ⟨_, r.conducts (fun _ _ => trivial) plan⟩

theorem Request.disciplined (plan : Plan) : Disciplined (Request.program plan) :=
  fun r => ⟨_, r.conducts (fun _ _ => trivial) plan⟩

theorem Effect.admits {state after : State} (h : Effect state occurrence after)
    {deed : Deed interface} (hdeed : occurrence.deedOf? actor = some deed) :
    Admits (fun _ => True) deed.action deed.answer := by
  cases h with
  | printed => cases hdeed
  | @did other reaction action answer next hperform =>
      obtain ⟨-, rfl⟩ := by simpa [Occurrence.deedOf?] using hdeed
      cases action with
      | acquire limit =>
          obtain ⟨core, -, hresult⟩ := Option.map_eq_some_iff.mp hperform
          cases hresult
          cases limit <;> trivial
      | _ => trivial
  | @gaveUp other reaction action answer next hwait hgiveUp =>
      obtain ⟨-, rfl⟩ := by simpa [Occurrence.deedOf?] using hdeed
      cases action with
      | acquire limit =>
          cases limit with
          | none => cases hgiveUp
          | some limit => trivial
      | _ => trivial

section Runs

variable {host : Host} {ρ α : Type} {program : ρ → Activity α} {c : Chronicle host ρ α}

theorem Possible.admits (h : Possible program c) (actor : Actor) :
    ∀ deed ∈ deedsOf actor c.history, Admits (fun _ => True) deed.action deed.answer := by
  refine h.of_effect (fun _ history => ∀ deed ∈ deedsOf actor history,
    Admits (fun _ => True) deed.action deed.answer) (by simp) ?_
  intro c next occurrence _ _ _ heffect hbefore deed hdeed
  rw [deedsOf_append, List.mem_append] at hdeed
  rcases hdeed with hdeed | hdeed
  · exact hbefore deed hdeed
  · have hdeed : occurrence.deedOf? actor = some deed := by simpa [deedsOf] using hdeed
    exact heffect.admits hdeed

/-- A run is a life of its session; whether callers deliver is up to their programs. -/
theorem Possible.lived {callersDeliver : Prop} (h : Possible program c)
    (hprogram : ∀ r, ∃ ends,
      (program r).Follows (course callersDeliver fun _ => True) .idle ends) :
    Lived callersDeliver c.session c.history := by
  induction h with
  | fresh => exact .new ⟨rfl, rfl, fun channel => by cases channel <;> rfl, rfl⟩
  | turn h turn hturn ih =>
      have hchange := Chronicle.change_of_turn? hturn
      refine ih.change hchange fun occurrence n deed hlast hdeed => ?_
      obtain ⟨action, rest, hcaller, rfl⟩ := hchange.exists_caller hlast hdeed
      exact h.accounted.permits hprogram hcaller (h.admits (.caller n))

/-- In every run the gate and the slot are in order. -/
theorem Possible.orderly (h : Possible program c) (hprogram : Disciplined program) :
    Orderly c.session.state.core c.history :=
  (h.lived hprogram).orderly

/-- What an occurrence has done to the state, and that it was permitted. -/
theorem Possible.exists_effect (h : Possible program c) (hprogram : Disciplined program)
    {past future : History} {occurrence : Occurrence}
    (hhistory : c.history = past ++ occurrence :: future) :
    ∃ (earlier : Chronicle host ρ α) (after : State), Possible program earlier ∧
      earlier.history = past ∧ Effect earlier.session.state occurrence after ∧
      ∀ actor deed, occurrence.deedOf? actor = some deed →
        (legOf actor past).Permits True deed.action := by
  obtain ⟨-, -, -, -, hpermits⟩ := (h.lived hprogram).exists_effect hhistory
  obtain ⟨earlier, later, hmoment, rfl, hlater⟩ := h.exists_moment hhistory
  exact ⟨earlier, _, hmoment.possible, rfl, hmoment.effect hlater, hpermits⟩

/-- What a command returns in a run. -/
theorem Possible.returns (h : Possible program c) (hprogram : Disciplined program)
    {past future : History} {actor : Actor} {ticket limit : Nat} {claimed : Bool}
    {outcome : Outcome} (hhistory : c.history =
      past ++ .did actor ⟨.awaitResult ticket limit claimed, outcome⟩ :: future) :
    ∃ before since, past = before ++ .did actor ⟨.arm, ticket⟩ :: since ∧
      (∀ occurrence ∈ since, ¬ occurrence.Bounds) ∧ (written since).length = 1 ∧
      ((deliveries since).getLast? = some outcome ∨
        deliveries since = [] ∧ outcome = .sessionExited) := by
  obtain ⟨before, since, line, hpast, hquiet, hline, -, hlast⟩ :=
    (h.lived hprogram).returns hhistory
  exact ⟨before, since, hpast, hquiet, by simp [hline], hlast⟩

end Runs

end DebugBridge.Session
