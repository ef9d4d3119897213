import DebugBridge.Proofs.Bridge.Bookkeeping

/-!
# Who is put in place and driven out

A bridge has one place for a session.  A start looks whether the place is free, makes a session and
starts it, and then looks again, when it puts it in place; a stop takes it away, and an attachment
replaces it.  Whoever drives a session out of its place stops it.

## Strategy

* What is in place follows from a few deeds of callers (`onPlace`), and fewer of them drive a session
  out (`displaced?`).
* Only a start, a stop and an attachment have to do with it (`Action.Houses`), and each of them is
  taken to the deeds that it has done when it is over.

## Main statements

* `perform_displaced`: how a session loses its place.
* `Errand.belongs`: which errands put sessions in place and drive them out.
* `start_yields`: what a start has done, with its answer.
* `Errand.clears`: an errand that is over has stopped the sessions that it has driven out.
-/

namespace DebugBridge.Bridge

open Session (Plan)

/-! ## What is in place -/

/-- What a deed makes of the place. -/
def onPlace : Deed interface → Option Nat → Option Nat
  | ⟨.place id, .placed _ _⟩, _ => some id
  | ⟨.replace id, _⟩, _ => some id
  | ⟨.take, _⟩, _ => none
  | _, place => place

def Occurrence.onPlace : Occurrence → Option Nat → Option Nat
  | .did _ deed => Bridge.onPlace deed
  | .gaveUp _ _ | .happened _ => id

/-- The session that was put in place last and not taken away since. -/
def occupant (history : History) : Option Nat :=
  history.foldl (fun place occurrence => occurrence.onPlace place) none

/-- The session that a deed drives out of its place. -/
def displaced? : Deed interface → Option Tenant
  | ⟨.take, tenant?⟩ | ⟨.replace _, tenant?⟩ => tenant?
  | ⟨.place _, .placed _ replaced⟩ => replaced
  | _ => none

/-- Whether an action has to do with who is in place. -/
def Action.Houses : Action → Prop
  | create _ | place _ | replace _ | take => True
  | _ => False

theorem displaced?_eq_none {deed : Deed interface} (h : ¬ deed.action.Houses) :
    displaced? deed = none := by
  obtain ⟨action, answer⟩ := deed
  cases action with
  | create | place | replace | take => exact absurd trivial h
  | _ => rfl

theorem Occurrence.IsOfSession.onPlace {occurrence : Occurrence} (h : occurrence.IsOfSession)
    (place : Option Nat) : occurrence.onPlace place = place := by
  cases occurrence with
  | did caller deed =>
      obtain ⟨action, answer⟩ := deed
      obtain ⟨id, act, rfl⟩ := h
      rfl
  | gaveUp | happened => rfl

section Perform

variable {reaction : Option Fault} {action : Action} {state next : State} {answer : action.Answer}

theorem perform_place (h : state.perform reaction action = some (next, answer)) :
    next.place = onPlace ⟨action, answer⟩ state.place := by
  cases action with
  | on id action =>
      obtain ⟨session, after, -, -, rfl⟩ := withSession_eq_some h
      rfl
  | place id =>
      simp only [State.perform] at h
      split at h <;> cases h <;> rfl
  | remember breakpoint =>
      cases h
      show (state.remember breakpoint).place = state.place
      unfold State.remember
      split <;> rfl
  | _ =>
      cases h
      rfl

/-- No session is forgotten. -/
theorem perform_length_le (h : state.perform reaction action = some (next, answer)) :
    state.members.length ≤ next.members.length := by
  cases action with
  | on id action =>
      obtain ⟨session, after, -, -, rfl⟩ := withSession_eq_some h
      simp [State.onSession]
  | place id =>
      simp only [State.perform] at h
      split at h <;> cases h <;> exact Nat.le_refl _
  | create plan =>
      cases h
      simp
  | remember breakpoint =>
      cases h
      unfold State.remember
      split <;> exact Nat.le_refl _
  | _ =>
      cases h
      exact Nat.le_refl _

theorem perform_create {plan : Plan} {id : Nat}
    (h : state.perform reaction (.create plan) = some (next, id)) : id < next.members.length := by
  cases h
  simp

/-- A session loses its place only if it is driven out, and one that goes on only by being taken
away or by the attachment of another one. -/
theorem perform_displaced {id : Nat} (h : state.perform reaction action = some (next, answer))
    (hplace : state.place = some id) : next.place = some id ∨
      displaced? ⟨action, answer⟩ = state.tenant? ∧
        (state.phase id ≠ .exited → action = .take ∨ ∃ other, action = .replace other) := by
  cases action with
  | take | replace =>
      cases h
      simp [displaced?]
  | place other =>
      simp only [State.perform] at h
      split at h <;> cases h
      · exact .inl hplace
      · rename_i hnotLive
        refine .inr ⟨rfl, fun hlive => ?_⟩
        simp [State.hasLive, hplace, hlive] at hnotLive
  | _ => exact .inl ((perform_place h).trans hplace)

end Perform

/-! ## What belongs to an errand -/

/-- The errand is to stop the session in place. -/
def Errand.Stops (errand : Errand) : Prop :=
  errand.ask? = some .stop ∨ errand = .shutDown

/-- Whether an action may belong to an errand, as far as it has to do with who is in place. -/
def Action.BelongsTo (errand : Errand) : Action → Prop
  | create _ | place _ => ∃ params, errand.ask? = some (.start params)
  | replace id => errand = .attach id
  | take => errand.Stops
  | _ => True

theorem Action.belongsTo_of_not_houses {action : Action} (h : ¬ action.Houses) (errand : Errand) :
    action.BelongsTo errand := by
  cases action with
  | create | place | replace | take => exact absurd trivial h
  | _ => trivial

theorem onSession_houses {α : Type} (id : Nat) (program : Session.Activity α) :
    (onSession id program).OnlyDoes fun action : Action => ¬ action.Houses := by
  refine (onSession_onlyDoes id program).mono ?_
  rintro _ ⟨act, rfl⟩ hhouses
  exact hhouses

theorem discard_houses (tenant? : Option Tenant) :
    (discard tenant?).OnlyDoes fun action : Action => ¬ action.Houses := by
  cases tenant? with
  | none => trivial
  | some tenant => exact onSession_houses _ _

theorem withTenant_houses {program : Tenant → Activity Answer}
    (h : ∀ tenant, (program tenant).OnlyDoes fun action : Action => ¬ action.Houses) :
    (withTenant program).OnlyDoes fun action : Action => ¬ action.Houses := by
  refine ⟨id, fun tenant? => ?_⟩
  cases tenant? with
  | none => trivial
  | some tenant => exact h tenant

/-- Whether what is asked for has to do with who is in place. -/
def Ask.Houses : Ask → Prop
  | start _ | stop => True
  | _ => False

theorem Ask.answer_houses (surroundings : Surroundings) {ask : Ask} (h : ¬ ask.Houses) :
    (ask.answer surroundings).OnlyDoes fun action : Action => ¬ action.Houses := by
  cases ask with
  | start | stop => exact absurd trivial h
  | status =>
      refine ⟨id, fun tenant? => ?_⟩
      cases tenant? with
      | none => trivial
      | some tenant => exact ⟨id, fun _ => ⟨id, fun _ => ⟨id, fun _ => trivial⟩⟩⟩
  | call | command | settings | frames | locals =>
      exact withTenant_houses fun tenant => (onSession_houses _ _).bind fun _ => trivial
  | insert breakpoint =>
      refine withTenant_houses fun tenant => (onSession_houses _ _).bind fun outcome => ?_
      cases Outcome.decoder outcome.toJson.normal with
      | error e => trivial
      | ok decoded =>
          show Program.OnlyDoes _ (if decoded.isSuccess then _ else _)
          split
          · exact ⟨id, fun _ => trivial⟩
          · trivial
  | remove breakpoint =>
      exact withTenant_houses fun tenant => (onSession_houses _ _).bind fun _ =>
        ⟨id, fun _ => trivial⟩

section OnlyDoes

variable {permitted : Action → Prop}

theorem start_onlyDoes (hplain : ∀ action : Action, ¬ action.Houses → permitted action)
    (hcreate : ∀ plan, permitted (.create plan)) (hplace : ∀ id, permitted (.place id))
    (surroundings : Surroundings) (params : StartParams) :
    (start surroundings params).OnlyDoes permitted := by
  have hdiscard (tenant? : Option Tenant) : (discard tenant?).OnlyDoes permitted :=
    (discard_houses tenant?).mono hplain
  refine ⟨hplain _ id, fun live => ?_⟩
  cases live with
  | true => trivial
  | false =>
      refine ⟨hcreate _, fun id => ((onSession_houses _ _).mono hplain).bind fun started => ?_⟩
      cases started with
      | error fault => exact (hdiscard _).bind fun _ => trivial
      | ok =>
          refine ⟨hplace _, fun placement => ?_⟩
          cases placement with
          | occupied | placed => exact (hdiscard _).bind fun _ => trivial

theorem stop_onlyDoes (hplain : ∀ action : Action, ¬ action.Houses → permitted action)
    (htake : permitted .take) : stop.OnlyDoes permitted := by
  refine ⟨htake, fun tenant? => ?_⟩
  cases tenant? with
  | none => trivial
  | some tenant =>
      exact ((onSession_houses _ _).mono hplain).bind fun _ => ⟨hplain _ id, fun _ => trivial⟩

end OnlyDoes

/-- What an errand does belongs to it. -/
theorem Errand.belongs (surroundings : Surroundings) (errand : Errand) :
    (errand.program surroundings).OnlyDoes (Action.BelongsTo errand) := by
  have hplain (action : Action) (hnot : ¬ action.Houses) : action.BelongsTo errand :=
    Action.belongsTo_of_not_houses hnot errand
  cases errand with
  | line text =>
      rcases program_line surroundings text with ⟨ask, hask, hprogram⟩ | ⟨_, -, hprogram⟩
      · rw [hprogram]
        refine Program.OnlyDoes.bind ?_ fun _ => trivial
        cases ask with
        | start params =>
            exact start_onlyDoes hplain (fun _ => ⟨params, hask⟩) (fun _ => ⟨params, hask⟩) _ _
        | stop => exact stop_onlyDoes hplain (.inl hask)
        | _ => exact (Ask.answer_houses surroundings id).mono hplain
      · rw [hprogram]
        trivial
  | shutDown =>
      refine Program.OnlyDoes.bind ?_ fun _ => trivial
      exact (stop_onlyDoes hplain (.inr rfl)).bind fun _ => trivial
  | attach id =>
      refine Program.OnlyDoes.bind ?_ fun _ => trivial
      exact ⟨rfl, fun tenant? => (discard_houses tenant?).mono hplain⟩
  | operation id plan asked =>
      exact ((onSession_houses _ _).mono hplain).bind fun _ => trivial

/-! ## What an errand has done when it is over -/

/-- A whole stop of a session is among the deeds. -/
def StoppedIn (tenant : Tenant) (deeds : List (Deed interface)) : Prop :=
  ∃ before closing after, deeds.filterMap (deedOn? tenant.id) = before ++ closing ++ after ∧
    (Session.stop tenant.plan.config).Leads closing (.done ())

/-- Every session that the deeds have driven out was stopped. -/
def Cleared (deeds : List (Deed interface)) : Prop :=
  ∀ deed ∈ deeds, ∀ tenant, displaced? deed = some tenant → StoppedIn tenant deeds

/-- A session was stopped, if there was one, and nothing else was done. -/
inductive Discarded : Option Tenant → List (Deed interface) → Prop
  | nothing : Discarded none []
  | stop {tenant : Tenant} {closing : List (Deed Session.interface)}
      (hstop : (Session.stop tenant.plan.config).Leads closing (.done ())) :
      Discarded (some tenant) (closing.map (deedOn tenant.id))

theorem not_houses_of_mem_map {id : Nat} {deeds : List (Deed Session.interface)} :
    ∀ deed ∈ deeds.map (deedOn id), ¬ deed.action.Houses := by
  intro deed hdeed
  obtain ⟨done, -, rfl⟩ := List.mem_map.mp hdeed
  exact fun hhouses => hhouses

section Discarded

variable {tenant : Tenant} {tenant? : Option Tenant} {deeds : List (Deed interface)}

theorem Discarded.not_houses (h : Discarded tenant? deeds) :
    ∀ deed ∈ deeds, ¬ deed.action.Houses := by
  cases h with
  | nothing => simp
  | stop => exact not_houses_of_mem_map

theorem Discarded.stoppedIn {closing : List (Deed interface)}
    (h : Discarded (some tenant) closing) (hclosing : closing <:+: deeds) :
    StoppedIn tenant deeds := by
  obtain ⟨before, after, rfl⟩ := hclosing
  cases h with
  | @stop _ closing hstop =>
      have hsame : (closing.map (deedOn tenant.id)).filterMap (deedOn? tenant.id) = closing := by
        rw [List.filterMap_map]
        exact (filterMap_deedOn? _ _ _).trans (if_pos rfl)
      refine ⟨before.filterMap (deedOn? tenant.id), closing, after.filterMap (deedOn? tenant.id),
        ?_, hstop⟩
      rw [List.filterMap_append, List.filterMap_append, hsame]

end Discarded

theorem discard_yields (tenant? : Option Tenant) :
    (discard tenant?).Yields fun _ deeds => Discarded tenant? deeds := by
  cases tenant? with
  | none => exact .nothing
  | some tenant =>
      refine (onSession_yields tenant.id (Session.stop tenant.plan.config)).mono ?_
      rintro _ _ ⟨closing, rfl, hstop⟩
      exact .stop hstop

theorem cleared_of_displaced?_eq_none {deeds : List (Deed interface)}
    (h : ∀ deed ∈ deeds, displaced? deed = none) : Cleared deeds := by
  intro deed hdeed tenant hdisplaced
  rw [h deed hdeed] at hdisplaced
  cases hdisplaced

/-- Who drives a session out and then stops it has cleared the place. -/
theorem Discarded.cleared {evictor : Deed interface} {before discarding after : List (Deed interface)}
    (h : Discarded (displaced? evictor) discarding) (hbefore : ∀ deed ∈ before, displaced? deed = none)
    (hafter : ∀ deed ∈ after, ¬ deed.action.Houses) :
    Cleared (before ++ evictor :: (discarding ++ after)) := by
  intro deed hdeed tenant hdisplaced
  have hevictor : deed = evictor := by
    rcases List.mem_append.mp hdeed with hdeed | hdeed
    · rw [hbefore deed hdeed] at hdisplaced
      cases hdisplaced
    · refine (List.mem_cons.mp hdeed).resolve_right fun hdeed => ?_
      have hnot : ¬ deed.action.Houses :=
        (List.mem_append.mp hdeed).elim (h.not_houses deed) (hafter deed)
      rw [displaced?_eq_none hnot] at hdisplaced
      cases hdisplaced
  rw [← hevictor, hdisplaced] at h
  exact h.stoppedIn ⟨before ++ [evictor], after, by simp⟩

/-- What a start has done that has made a session and started it. -/
def broughtUp (plan : Plan) (id : Nat) (starting : List (Deed Session.interface)) :
    List (Deed interface) :=
  ⟨.hasLiveSession, false⟩ :: ⟨.create plan, id⟩ :: starting.map (deedOn id)

/-- What a start has done that was answered so. -/
inductive StartServed (surroundings : Surroundings) (plan : Plan) :
    Answer → List (Deed interface) → Prop
  | declined : StartServed surroundings plan (.error alreadyRunning) [⟨.hasLiveSession, true⟩]
  | failed {id : Nat} {fault : Fault} {starting : List (Deed Session.interface)}
      {closing : List (Deed interface)}
      (hstart : (Session.start plan).Leads starting (.done (.error fault)))
      (hclosing : Discarded (some ⟨id, plan⟩) closing) :
      StartServed surroundings plan (.error (.startFailed fault.message))
        (broughtUp plan id starting ++ closing)
  /-- the session has come up, and another one was in place -/
  | crowdedOut {id : Nat} {starting : List (Deed Session.interface)}
      {closing : List (Deed interface)}
      (hstart : (Session.start plan).Leads starting (.done (.ok ())))
      (hclosing : Discarded (some ⟨id, plan⟩) closing) :
      StartServed surroundings plan (.error alreadyRunning)
        (broughtUp plan id starting ++ ⟨.place id, .occupied⟩ :: closing)
  | settled {id : Nat} {starting : List (Deed Session.interface)} {phase : Session.Phase}
      {replaced : Option Tenant} {discarding : List (Deed interface)}
      (hstart : (Session.start plan).Leads starting (.done (.ok ())))
      (hdiscarding : Discarded replaced discarding) :
      StartServed surroundings plan
        (.ok (.object [("session_id", .string (surroundings.label id)), ("state", phase.toJson)]))
        (broughtUp plan id starting ++ ⟨.place id, .placed phase replaced⟩ :: discarding)

theorem start_yields (surroundings : Surroundings) (params : StartParams) :
    (start surroundings params).Yields
      (StartServed surroundings (params.plan surroundings.environment)) := by
  intro live
  cases live with
  | true => exact .declined
  | false =>
      intro id
      refine (onSession_yields id (Session.start _)).bind ?_
      rintro result _ ⟨starting, rfl, hstart⟩
      cases result with
      | error fault =>
          refine (discard_yields _).bind ?_
          intro _ closing hclosing
          simpa [broughtUp] using StartServed.failed hstart hclosing
      | ok =>
          intro placement
          cases placement with
          | occupied =>
              refine (discard_yields _).bind ?_
              intro _ closing hclosing
              simpa [broughtUp] using StartServed.crowdedOut hstart hclosing
          | placed phase replaced =>
              refine (discard_yields _).bind ?_
              intro _ discarding hdiscarding
              simpa [broughtUp] using StartServed.settled hstart hdiscarding

/-- The deeds put a session in place. -/
def Settles (id : Nat) (deeds : List (Deed interface)) : Prop :=
  ∃ phase replaced, ⟨.place id, .placed phase replaced⟩ ∈ deeds

section StartServed

variable {surroundings : Surroundings} {plan : Plan} {answer : Answer}
  {deeds : List (Deed interface)}

theorem mem_broughtUp {deed : Deed interface} {id : Nat}
    {starting : List (Deed Session.interface)} (h : deed ∈ broughtUp plan id starting) :
    deed = ⟨.create plan, id⟩ ∨ ¬ deed.action.Houses := by
  rcases List.mem_cons.mp h with rfl | h
  · exact .inr fun hhouses => hhouses
  · exact (List.mem_cons.mp h).imp_right (not_houses_of_mem_map deed)

theorem displaced?_of_mem_broughtUp {id : Nat} {starting : List (Deed Session.interface)} :
    ∀ deed ∈ broughtUp plan id starting, displaced? deed = none := by
  intro deed hdeed
  rcases mem_broughtUp hdeed with rfl | hnot
  · rfl
  · exact displaced?_eq_none hnot

theorem settles_append {id : Nat} {more : List (Deed interface)} :
    Settles id (deeds ++ more) ↔ Settles id deeds ∨ Settles id more := by
  simp only [Settles, List.mem_append]
  constructor
  · rintro ⟨phase, replaced, hmem | hmem⟩
    · exact .inl ⟨phase, replaced, hmem⟩
    · exact .inr ⟨phase, replaced, hmem⟩
  · rintro (⟨phase, replaced, hmem⟩ | ⟨phase, replaced, hmem⟩)
    · exact ⟨phase, replaced, .inl hmem⟩
    · exact ⟨phase, replaced, .inr hmem⟩

theorem not_settles {id : Nat} (h : ∀ deed ∈ deeds, ¬ deed.action.Houses) : ¬ Settles id deeds := by
  rintro ⟨phase, replaced, hmem⟩
  exact h _ hmem trivial

theorem not_settles_broughtUp {id other : Nat} {starting : List (Deed Session.interface)} :
    ¬ Settles other (broughtUp plan id starting) := by
  rintro ⟨phase, replaced, hmem⟩
  rcases mem_broughtUp hmem with heq | hnot
  · cases heq
  · exact hnot trivial

/-- The only session that a start has made is the one that it has started. -/
theorem eq_of_create_mem {made : Plan} {id other : Nat} {starting : List (Deed Session.interface)}
    {more : List (Deed interface)} (hmore : ∀ deed ∈ more, deed.action ≠ .create made)
    (h : ⟨.create made, other⟩ ∈ broughtUp plan id starting ++ more) :
    (⟨other, made⟩ : Tenant) = ⟨id, plan⟩ := by
  rcases List.mem_append.mp h with h | h
  · rcases mem_broughtUp h with heq | hnot
    · cases heq
      rfl
    · exact absurd trivial hnot
  · exact absurd rfl (hmore _ h)

/-- A start is answered by a result exactly if it has put the session in place that it made. -/
theorem StartServed.isOk_iff (h : StartServed surroundings plan answer deeds) :
    (∃ result, answer = .ok result) ↔
      ∃ made id, ⟨.create made, id⟩ ∈ deeds ∧ Settles id deeds := by
  cases h with
  | declined => simp
  | failed hstart hclosing =>
      refine iff_of_false nofun ?_
      rintro ⟨made, other, -, hsettles⟩
      rcases settles_append.mp hsettles with hsettles | hsettles
      · exact not_settles_broughtUp hsettles
      · exact not_settles hclosing.not_houses hsettles
  | crowdedOut hstart hclosing =>
      refine iff_of_false nofun ?_
      rintro ⟨made, other, -, hsettles⟩
      rcases settles_append.mp hsettles with hsettles | ⟨phase, replaced, hmem⟩
      · exact not_settles_broughtUp hsettles
      · have hclosed : Settles other _ :=
          ⟨phase, replaced, (List.mem_cons.mp hmem).resolve_left nofun⟩
        exact not_settles hclosing.not_houses hclosed
  | @settled id starting phase replaced discarding hstart hdiscarding =>
      refine iff_of_true ⟨_, rfl⟩ ⟨plan, id, ?_, phase, replaced, ?_⟩
      · exact List.mem_append_left _ (by simp [broughtUp])
      · exact List.mem_append_right _ List.mem_cons_self

/-- A start has put the session in place that it made, or stopped it. -/
theorem StartServed.settles_or_stopped (h : StartServed surroundings plan answer deeds)
    {made : Plan} {id : Nat} (hmade : ⟨.create made, id⟩ ∈ deeds) :
    Settles id deeds ∨ StoppedIn ⟨id, made⟩ deeds := by
  have hnever {tenant? : Option Tenant} {more : List (Deed interface)}
      (hmore : Discarded tenant? more) : ∀ deed ∈ more, deed.action ≠ .create made := by
    intro deed hdeed heq
    exact hmore.not_houses deed hdeed (heq ▸ trivial)
  cases h with
  | declined => simp at hmade
  | failed hstart hclosing =>
      rw [eq_of_create_mem (hnever hclosing) hmade]
      exact .inr (hclosing.stoppedIn (List.suffix_append ..).isInfix)
  | crowdedOut hstart hclosing =>
      rw [eq_of_create_mem (List.forall_mem_cons.mpr ⟨by simp, hnever hclosing⟩) hmade]
      exact .inr (hclosing.stoppedIn
        ((List.suffix_cons ..).trans (List.suffix_append ..)).isInfix)
  | settled hstart hdiscarding =>
      cases eq_of_create_mem (List.forall_mem_cons.mpr ⟨by simp, hnever hdiscarding⟩) hmade
      exact .inl ⟨_, _, List.mem_append_right _ List.mem_cons_self⟩

theorem StartServed.cleared (h : StartServed surroundings plan answer deeds) : Cleared deeds := by
  cases h with
  | declined => exact cleared_of_displaced?_eq_none (by simp [displaced?])
  | failed hstart hclosing =>
      refine cleared_of_displaced?_eq_none (List.forall_mem_append.mpr ⟨?_, ?_⟩)
      · exact displaced?_of_mem_broughtUp
      · exact fun deed hdeed => displaced?_eq_none (hclosing.not_houses deed hdeed)
  | crowdedOut hstart hclosing =>
      refine cleared_of_displaced?_eq_none (List.forall_mem_append.mpr ⟨?_, ?_⟩)
      · exact displaced?_of_mem_broughtUp
      · refine List.forall_mem_cons.mpr ⟨rfl, ?_⟩
        exact fun deed hdeed => displaced?_eq_none (hclosing.not_houses deed hdeed)
  | @settled id starting phase replaced discarding hstart hdiscarding =>
      rw [← List.append_nil discarding]
      exact Discarded.cleared hdiscarding displaced?_of_mem_broughtUp (by simp)

end StartServed

theorem stop_clears : stop.Yields fun _ deeds => Cleared deeds := by
  intro tenant?
  cases tenant? with
  | none => exact cleared_of_displaced?_eq_none (by simp [displaced?])
  | some tenant =>
      refine (discard_yields (some tenant)).bind ?_
      intro _ closing hclosing phase
      have hcleared : Cleared ([] ++ ⟨.take, some tenant⟩ ::
          (closing ++ [⟨.on tenant.id .phase, phase⟩])) :=
        Discarded.cleared hclosing (by simp) (by simp [Action.Houses])
      exact hcleared

theorem attach_clears (id : Nat) : (attach id).Yields fun _ deeds => Cleared deeds := by
  intro tenant?
  refine (discard_yields tenant?).mono ?_
  intro _ discarding hdiscarding
  have hcleared : Cleared ([] ++ ⟨.replace id, tenant?⟩ :: (discarding ++ [])) :=
    Discarded.cleared hdiscarding (by simp) (by simp)
  simpa using hcleared

/-- An errand that is over has stopped every session that it has driven out. -/
theorem Errand.clears (surroundings : Surroundings) (errand : Errand) :
    (errand.program surroundings).Yields fun _ deeds => Cleared deeds := by
  have hplain {β : Type} {program : Activity β}
      (h : program.OnlyDoes fun action : Action => ¬ action.Houses) :
      program.Yields fun _ deeds => Cleared deeds :=
    h.yields.mono fun _ deeds hnot => cleared_of_displaced?_eq_none fun deed hdeed =>
      displaced?_eq_none (hnot deed hdeed)
  have hanswered {β γ : Type} {program : Activity β}
      (h : program.Yields fun _ deeds => Cleared deeds) (f : β → γ) :
      (program >>= fun value => pure (f value)).Yields fun _ deeds => Cleared deeds :=
    (h.map f).mono fun _ _ ⟨_, _, hcleared⟩ => hcleared
  cases errand with
  | line text =>
      rcases program_line surroundings text with ⟨ask, hask, hprogram⟩ | ⟨_, -, hprogram⟩
      · rw [hprogram]
        refine hanswered ?_ _
        cases ask with
        | start params => exact (start_yields surroundings params).mono fun _ _ h => h.cleared
        | stop => exact stop_clears
        | _ => exact hplain (Ask.answer_houses surroundings id)
      · rw [hprogram]
        exact cleared_of_displaced?_eq_none (by simp)
  | shutDown => exact hanswered (hanswered stop_clears _) _
  | attach id => exact hanswered (attach_clears id) _
  | operation id plan asked => exact hanswered (hplain (onSession_houses _ _)) _

/-! ## A start puts its own session in place -/

/-- A session may be put in place by whom it was made. -/
def PlacesOwn (deeds : List (Deed interface)) (action : Action) : Prop :=
  ∀ id, action = .place id → ∃ plan, ⟨.create plan, id⟩ ∈ deeds

theorem start_placesOwn (surroundings : Surroundings) (params : StartParams) :
    (start surroundings params).Follows (Protocol.ledger PlacesOwn) [] fun _ _ => True := by
  have hdiscard (tenant? : Option Tenant) (deeds : List (Deed interface)) :
      (discard tenant?).Follows (Protocol.ledger PlacesOwn) deeds fun _ _ => True := by
    refine (discard_houses tenant?).follows_of_forall ?_ _
    rintro deeds _ hnot id rfl
    exact absurd trivial hnot
  refine ⟨nofun, fun live _ => ?_⟩
  cases live with
  | true => trivial
  | false =>
      refine ⟨nofun, fun id _ => ?_⟩
      refine (onSession_follows_ledger (Program.yields_leads _) _ fun _ _ => nofun).bind ?_
      rintro started _ ⟨starting, rfl, -⟩
      cases started with
      | error fault => exact (hdiscard _ _).bind fun _ _ _ => trivial
      | ok =>
          refine ⟨?_, fun placement _ => ?_⟩
          · rintro _ heq
            cases heq
            exact ⟨params.plan surroundings.environment, List.mem_append_left _ (by simp)⟩
          · cases placement with
            | occupied | placed => exact (hdiscard _ _).bind fun _ _ _ => trivial

theorem Errand.placesOwn (surroundings : Surroundings) (errand : Errand) :
    (errand.program surroundings).Follows (Protocol.ledger PlacesOwn) [] fun _ _ => True := by
  by_cases hstart : ∃ params, errand.ask? = some (.start params)
  · obtain ⟨params, hask⟩ := hstart
    rw [errand.program_of_ask? surroundings hask]
    exact (start_placesOwn surroundings params).bind fun _ _ _ => trivial
  · refine (errand.belongs surroundings).follows_of_forall ?_ _
    rintro deeds _ hbelongs id rfl
    exact absurd hbelongs hstart

end DebugBridge.Bridge
