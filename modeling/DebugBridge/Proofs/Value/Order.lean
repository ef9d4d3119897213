import DebugBridge.Proofs.Value.Folding
import Mathlib.Data.List.Induction

/-!
# The order of names

A tuple that collects named values shows its names in the order in which they first arrived, however
often they arrive again, and what it stores under one name has nothing to do with the others.
Collecting goes on where it stopped: the entries behind a comma are folded one by one into those
that were read in front of it.

## Strategy

The names follow from what folding one value does to them (`map_fst_upsert`), by induction on the
sequence from its end.  For a text that goes on behind a comma, the results in front of the comma
and those behind it are put together to the results of the whole (`resultsText_append`).

## Main statements

* `folding_keeps_order`: names in order of arrival, values by name alone, and texts with a comma
  between them.
-/

namespace DebugBridge.Value

open Grammar

namespace Entries

/-! ## Names -/

theorem collect_append (first second : Entries) :
    collect (first ++ second) = (collect first).foldAll second :=
  List.foldl_append

theorem eraseDups_concat (names : List String) (name : String) :
    (names ++ [name]).eraseDups =
      if name ∈ names then names.eraseDups else names.eraseDups ++ [name] := by
  rw [List.eraseDups_append]
  split
  · next hold => simp [List.removeAll, hold]
  · next hnew => simp [List.removeAll, List.eraseDups_cons, hnew]

/-- The names of a collection are those of the sequence, each where it first arrives. -/
theorem map_fst_collect (pairs : Entries) :
    (collect pairs).map Prod.fst = (pairs.map Prod.fst).eraseDups := by
  induction pairs using List.reverseRecOn with
  | nil => rfl
  -- the last pair adds its name to both sides, or to neither
  | append_singleton pairs pair ih =>
      have hstep : collect (pairs ++ [pair]) = (collect pairs).fold pair.1 pair.2 :=
        collect_append pairs [pair]
      rw [hstep, fold, map_fst_upsert, ih, List.map_append, List.map_singleton, eraseDups_concat]
      simp only [List.mem_eraseDups]

/-! ## One name among others -/

/-- The part of a sequence that arrives under a name. -/
def under (name : String) (pairs : Entries) : Entries :=
  pairs.filter fun pair => pair.1 = name

theorem arrivals_under (name : String) (pairs : Entries) :
    arrivals name (under name pairs) = arrivals name pairs := by
  rw [arrivals, under, List.filterMap_filter, arrivals]
  congr 1
  funext pair
  by_cases h : pair.1 = name <;> simp [h]

/-- What is stored under a name can be told from the pairs with that name. -/
theorem find?_collect_under (name : String) (pairs : Entries) :
    (collect (under name pairs)).find? name = (collect pairs).find? name := by
  rw [find?_collect, find?_collect, arrivals_under]

end Entries

/-! ## One text after another -/

theorem separated_append {first second : List (List Char)} (hfirst : first ≠ [])
    (hsecond : second ≠ []) :
    separated (first ++ second) = separated first ++ ',' :: separated second := by
  obtain ⟨text, others, rfl⟩ := List.exists_cons_of_ne_nil hfirst
  obtain ⟨next, more, rfl⟩ := List.exists_cons_of_ne_nil hsecond
  simp [separated]

theorem resultTexts_append (first second : List (Name × Tree)) :
    resultTexts (first ++ second) = resultTexts first ++ resultTexts second := by
  induction first with
  | nil => rfl
  | cons result others ih => rw [List.cons_append, resultTexts, ih, resultTexts, List.cons_append]

theorem namedValues_append (first second : List (Name × Tree)) :
    namedValues (first ++ second) = namedValues first ++ namedValues second := by
  induction first with
  | nil => rfl
  | cons result others ih => rw [List.cons_append, namedValues, ih, namedValues, List.cons_append]

theorem resultTexts_ne_nil {results : List (Name × Tree)} (h : results ≠ []) :
    resultTexts results ≠ [] := by
  obtain ⟨⟨name, value⟩, others, rfl⟩ := List.exists_cons_of_ne_nil h
  simp [resultTexts]

/-- Results that are put together have a comma between their texts. -/
theorem resultsText_append {first second : List (Name × Tree)} (hfirst : first ≠ [])
    (hsecond : second ≠ []) :
    resultsText (first ++ second) = resultsText first ++ ',' :: resultsText second := by
  rw [resultsText, resultTexts_append,
    separated_append (resultTexts_ne_nil hfirst) (resultTexts_ne_nil hsecond)]
  rfl

/-! ## Whole texts -/

/-- A text that is accepted and not empty is made up of results. -/
theorem exists_results_of_readEntries {input : List Char} {entries : Entries} (hinput : input ≠ [])
    (hread : readEntries input = .ok entries) :
    ∃ results ≠ [], resultsText results = input ∧
      Entries.collect (namedValues results) = entries := by
  obtain ⟨results, rfl, rfl⟩ := readEntries_eq_ok_iff.mp hread
  refine ⟨results, ?_, rfl, rfl⟩
  rintro rfl
  exact hinput rfl

/-- **Folding keeps order and keeps names apart.**  The names of a tuple are the distinct names of
what was folded into it, in order of first arrival.  What is stored under a name depends on the
pairs with that name only, and a pair whose name comes once is stored as it is.  When a comma and a
second text come behind a first one, the results of the second, of which there is one reading only,
are folded one by one into what the first is read as. -/
theorem folding_keeps_order :
    (∀ pairs : Entries,
      (Entries.collect pairs).map Prod.fst = (pairs.map Prod.fst).eraseDups) ∧
    (∀ (name : String) (pairs others : Entries),
      pairs.under name = others.under name →
        (Entries.collect pairs).find? name = (Entries.collect others).find? name) ∧
    (∀ (name : String) (value : Value) (pairs : Entries), pairs.under name = [(name, value)] →
      (Entries.collect pairs).find? name = some value) ∧
    (∀ front behind entries more, front ≠ [] → behind ≠ [] →
      readEntries front = .ok entries → readEntries behind = .ok more →
      ∃! results, resultsText results = behind ∧
        Entries.collect (namedValues results) = more ∧
        readEntries (front ++ ',' :: behind) = .ok (entries.foldAll (namedValues results))) := by
  refine ⟨Entries.map_fst_collect, ?_, ?_, ?_⟩
  · intro name pairs others hunder
    rw [← Entries.find?_collect_under name pairs, hunder, Entries.find?_collect_under]
  · intro name value pairs hunder
    rw [← Entries.find?_collect_under, hunder]
    simp [Entries.collect, Entries.fold, Entries.upsert, Entries.find?]
  · intro front behind entries more hfront hbehind hentries hmore
    obtain ⟨first, hfirst, rfl, rfl⟩ := exists_results_of_readEntries hfront hentries
    obtain ⟨second, hsecond, rfl, rfl⟩ := exists_results_of_readEntries hbehind hmore
    -- the text behind the comma has no other results
    refine ⟨second, ⟨rfl, rfl, ?_⟩, fun other hother => resultsText_injective hother.1⟩
    rw [readEntries_eq_ok_iff]
    refine ⟨first ++ second, resultsText_append hfirst hsecond, ?_⟩
    rw [namedValues_append, Entries.collect_append]

/-- A name on both sides of the comma, and one that is there once. -/
theorem folding_keeps_order_of_two_texts :
    (∃ results, resultsText results = "a=\"2\"".toList ∧
      readEntries ("a=\"1\",b=\"x\"".toList ++ ',' :: "a=\"2\"".toList) =
        .ok (Entries.foldAll [("a", text "1"), ("b", text "x")] (namedValues results))) ∧
    (Entries.collect [("a", text "1"), ("b", text "x"), ("a", text "2")]).find? "b" =
      some (text "x") ∧
    (Entries.collect [("a", text "1"), ("b", text "x"), ("a", text "2")]).find? "a" =
      (Entries.collect [("a", text "1"), ("a", text "2")]).find? "a" := by
  obtain ⟨-, hsame, honce, htexts⟩ := folding_keeps_order
  obtain ⟨results, ⟨htext, -, hread⟩, -⟩ := htexts "a=\"1\",b=\"x\"".toList "a=\"2\"".toList
    [("a", text "1"), ("b", text "x")] [("a", text "2")] (by decide) (by decide) (by rfl) (by rfl)
  exact ⟨⟨results, htext, hread⟩, honce _ _ _ (by decide), hsame _ _ _ (by decide)⟩

end DebugBridge.Value
