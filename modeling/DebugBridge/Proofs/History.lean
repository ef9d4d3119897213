import DebugBridge.Proofs.Protocol

/-!
# Histories

What is done to something that several actors share, first to last.  `deedsOf` is the part of a
history that one actor has done, by which it can be told where the actor is in its program
(`Program.Leads`) and in a protocol (`stageOf`).
-/

namespace DebugBridge

/-- Something that happened. -/
inductive Occurrence (I : Interface) (Actor Event : Type)
  /-- an action was performed -/
  | did (actor : Actor) (deed : Deed I)
  /-- an actor had to wait, and its action was concluded when the time was over -/
  | gaveUp (actor : Actor) (deed : Deed I)
  /-- something that was nobody's action -/
  | happened (event : Event)

variable {I : Interface} {Actor Event : Type} [DecidableEq Actor]

/-- What an actor did in an occurrence. -/
def Occurrence.deedOf? (actor : Actor) : Occurrence I Actor Event → Option (Deed I)
  | did other deed => if other = actor then some deed else none
  | gaveUp other deed => if other = actor then some deed else none
  | happened _ => none

@[simp]
theorem deedOf?_did (actor : Actor) (deed : Deed I) :
    (Occurrence.did actor deed : Occurrence I Actor Event).deedOf? actor = some deed :=
  if_pos rfl

@[simp]
theorem deedOf?_gaveUp (actor : Actor) (deed : Deed I) :
    (Occurrence.gaveUp actor deed : Occurrence I Actor Event).deedOf? actor = some deed :=
  if_pos rfl

/-- What an actor did, first to last. -/
def deedsOf (actor : Actor) (history : List (Occurrence I Actor Event)) : List (Deed I) :=
  history.filterMap (Occurrence.deedOf? actor)

section Deeds

variable {actor other : Actor} {occurrence : Occurrence I Actor Event} {deed : Deed I}
  {history : List (Occurrence I Actor Event)}

@[simp]
theorem deedsOf_nil (actor : Actor) : deedsOf actor ([] : List (Occurrence I Actor Event)) = [] :=
  rfl

@[simp]
theorem deedsOf_append (actor : Actor) (history more : List (Occurrence I Actor Event)) :
    deedsOf actor (history ++ more) = deedsOf actor history ++ deedsOf actor more := by
  simp [deedsOf]

@[simp]
theorem deedsOf_did (actor : Actor) (deed : Deed I) :
    deedsOf actor [(.did actor deed : Occurrence I Actor Event)] = [deed] := by
  simp [deedsOf]

@[simp]
theorem deedsOf_gaveUp (actor : Actor) (deed : Deed I) :
    deedsOf actor [(.gaveUp actor deed : Occurrence I Actor Event)] = [deed] := by
  simp [deedsOf]

theorem deedsOf_did_ne (h : other ≠ actor) (deed : Deed I) :
    deedsOf actor [(.did other deed : Occurrence I Actor Event)] = [] := by
  simp [deedsOf, Occurrence.deedOf?, h]

theorem deedsOf_gaveUp_ne (h : other ≠ actor) (deed : Deed I) :
    deedsOf actor [(.gaveUp other deed : Occurrence I Actor Event)] = [] := by
  simp [deedsOf, Occurrence.deedOf?, h]

@[simp]
theorem deedsOf_happened (actor : Actor) (event : Event) :
    deedsOf actor [(.happened event : Occurrence I Actor Event)] = [] :=
  rfl

theorem deedsOf_append_of_some (h : occurrence.deedOf? actor = some deed)
    (history : List (Occurrence I Actor Event)) :
    deedsOf actor (history ++ [occurrence]) = deedsOf actor history ++ [deed] := by
  simp [deedsOf, h]

theorem deedsOf_append_of_none (h : occurrence.deedOf? actor = none)
    (history : List (Occurrence I Actor Event)) :
    deedsOf actor (history ++ [occurrence]) = deedsOf actor history := by
  simp [deedsOf, h]

/-- What is done is done by one actor. -/
theorem deedOf?_eq_none (h : occurrence.deedOf? actor = some deed) (hne : actor ≠ other) :
    occurrence.deedOf? other = none := by
  cases occurrence with
  | happened => rfl
  | did doer deed | gaveUp doer deed =>
      obtain ⟨rfl, -⟩ := by simpa [Occurrence.deedOf?] using h
      simp [Occurrence.deedOf?, hne]

theorem mem_deedsOf :
    deed ∈ deedsOf actor history ↔ .did actor deed ∈ history ∨ .gaveUp actor deed ∈ history := by
  rw [deedsOf, List.mem_filterMap]
  constructor
  · rintro ⟨occurrence, hmem, hdeed⟩
    cases occurrence with
    | happened => cases hdeed
    | did other deed =>
        obtain ⟨rfl, rfl⟩ := by simpa [Occurrence.deedOf?] using hdeed
        exact .inl hmem
    | gaveUp other deed =>
        obtain ⟨rfl, rfl⟩ := by simpa [Occurrence.deedOf?] using hdeed
        exact .inr hmem
  · rintro (hmem | hmem)
    · exact ⟨_, hmem, deedOf?_did ..⟩
    · exact ⟨_, hmem, deedOf?_gaveUp ..⟩

/-- Where in a history an actor did something. -/
theorem exists_split_of_deedsOf {first rest : List (Deed I)}
    (h : deedsOf actor history = first ++ deed :: rest) :
    ∃ past occurrence future, history = past ++ occurrence :: future ∧
      occurrence.deedOf? actor = some deed ∧ deedsOf actor past = first ∧
      deedsOf actor future = rest := by
  obtain ⟨past, later, rfl, hfirst, hlater⟩ := List.filterMap_eq_append_iff.mp h
  obtain ⟨aside, occurrence, future, rfl, haside, hdeed, hrest⟩ :=
    List.filterMap_eq_cons_iff.mp hlater
  refine ⟨past ++ aside, occurrence, future, by simp, hdeed, ?_, hrest⟩
  have hnone : deedsOf actor aside = [] := List.filterMap_eq_nil_iff.mpr haside
  rw [deedsOf_append, hnone, List.append_nil]
  exact hfirst

end Deeds

/-! ## Stages -/

/-- The stage at which an actor is, by what it has done. -/
def stageOf (rules : Protocol I) (stage : rules.Stage) (actor : Actor)
    (history : List (Occurrence I Actor Event)) : rules.Stage :=
  rules.stageAfter stage (deedsOf actor history)

section Stages

variable {rules : Protocol I} {stage : rules.Stage} {actor : Actor}
  {occurrence : Occurrence I Actor Event}

@[simp]
theorem stageOf_nil : stageOf rules stage actor ([] : List (Occurrence I Actor Event)) = stage :=
  rfl

theorem stageOf_append_of_some {deed : Deed I} (h : occurrence.deedOf? actor = some deed)
    (history : List (Occurrence I Actor Event)) :
    stageOf rules stage actor (history ++ [occurrence]) =
      rules.after (stageOf rules stage actor history) deed.action deed.answer := by
  rw [stageOf, deedsOf_append_of_some h, Protocol.stageAfter_concat]
  rfl

theorem stageOf_append_of_none (h : occurrence.deedOf? actor = none)
    (history : List (Occurrence I Actor Event)) :
    stageOf rules stage actor (history ++ [occurrence]) = stageOf rules stage actor history := by
  rw [stageOf, deedsOf_append_of_none h, stageOf]

end Stages

end DebugBridge
