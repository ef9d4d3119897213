import DebugBridge.Proofs.Json.Reading
import DebugBridge.Proofs.Json.Records
import Mathlib.Data.List.Sort
import Mathlib.Data.String.Basic

/-!
# Normal forms of JSON values

The normal form of an object has each name once, with its last value, and the names sorted.  Where
no name is there twice, nothing but the order of the entries changes.  What is in normal form stays
as it is.

## Strategy

Entries are inserted one after the other into sorted ones, which stay sorted (`Sorted.insert`).  The
normal form of sorted entries whose values are in normal form has the same entries, and is sorted, so
that it is the same list.

## Main statements

* `perm_normalEntries`: the normal form of an object has its entries in another order.
* `normal_normal`: a normal form is its own.
* `allNumbers_normal`: normal forms hold no other kinds of numbers.
-/

namespace DebugBridge.Json

/-! ## The entries of a normal form -/

theorem mem_insertSorted {name : String} {value : Json} {sorted : List (String × Json)}
    {pair : String × Json} (h : pair ∈ insertSorted name value sorted) :
    pair = (name, value) ∨ pair ∈ sorted := by
  induction sorted with
  | nil => exact .inl (List.mem_singleton.mp h)
  | cons first rest ih =>
      obtain ⟨stored, old⟩ := first
      rw [insertSorted] at h
      split at h
      · exact (List.mem_cons.mp h).imp_right (List.mem_cons_of_mem _)
      · split at h
        · exact List.mem_cons.mp h
        · rcases List.mem_cons.mp h with rfl | h
          · exact .inr List.mem_cons_self
          · exact (ih h).imp_right (List.mem_cons_of_mem _)

/-- The entries of an object in normal form hold the normal forms of its values. -/
theorem mem_normalEntries_append {entries sorted : List (String × Json)} {pair : String × Json}
    (h : pair ∈ normalEntries sorted entries) :
    pair ∈ sorted ∨ ∃ entry ∈ entries, pair = (entry.1, entry.2.normal) := by
  induction entries generalizing sorted with
  | nil => exact .inl h
  | cons first rest ih =>
      obtain ⟨name, value⟩ := first
      rw [normalEntries] at h
      rcases ih h with hsorted | ⟨entry, hentry, rfl⟩
      · rcases mem_insertSorted hsorted with rfl | hsorted
        · exact .inr ⟨_, List.mem_cons_self, rfl⟩
        · exact .inl hsorted
      · exact .inr ⟨entry, List.mem_cons_of_mem _ hentry, rfl⟩

theorem mem_normalEntries {entries : List (String × Json)} {pair : String × Json}
    (h : pair ∈ normalEntries [] entries) :
    ∃ entry ∈ entries, pair = (entry.1, entry.2.normal) :=
  (mem_normalEntries_append h).resolve_left List.not_mem_nil

theorem perm_insertSorted {name : String} {sorted : List (String × Json)}
    (hnew : name ∉ sorted.map Prod.fst) (value : Json) :
    (insertSorted name value sorted).Perm ((name, value) :: sorted) := by
  induction sorted with
  | nil => exact .refl _
  | cons first rest ih =>
      obtain ⟨stored, old⟩ := first
      rw [List.map_cons, List.mem_cons, not_or] at hnew
      rw [insertSorted, if_neg (Ne.symm hnew.1)]
      split
      · exact .refl _
      · exact ((ih hnew.2).cons _).trans (.swap _ _ _)

/-- Entries with different names are brought into another order, and nothing else happens to them
than to their values. -/
theorem perm_normalEntries_append {entries sorted : List (String × Json)}
    (hnodup : ((sorted ++ entries).map Prod.fst).Nodup) :
    (normalEntries sorted entries).Perm
      (sorted ++ entries.map fun entry => (entry.1, entry.2.normal)) := by
  induction entries generalizing sorted with
  | nil => simp [normalEntries]
  | cons entry rest ih =>
      obtain ⟨name, value⟩ := entry
      have hnew : name ∉ sorted.map Prod.fst := by
        intro hmem
        rw [List.map_append, List.nodup_append] at hnodup
        exact hnodup.2.2 _ hmem _ (by simp) rfl
      have hinsert := perm_insertSorted hnew value.normal
      have hnodup' : ((insertSorted name value.normal sorted ++ rest).map Prod.fst).Nodup := by
        refine (((hinsert.append_right rest).map Prod.fst).nodup_iff).mpr ?_
        refine (List.Perm.nodup_iff ?_).mp hnodup
        simp
      rw [normalEntries]
      refine (ih hnodup').trans ((hinsert.append_right _).trans ?_)
      rw [List.cons_append, List.map_cons]
      exact List.perm_middle.symm

theorem perm_normalEntries {entries : List (String × Json)}
    (hnodup : (entries.map Prod.fst).Nodup) :
    (normalEntries [] entries).Perm (entries.map fun entry => (entry.1, entry.2.normal)) :=
  @perm_normalEntries_append entries [] hnodup

theorem nodup_normalEntries {entries : List (String × Json)}
    (hnodup : (entries.map Prod.fst).Nodup) :
    ((normalEntries [] entries).map Prod.fst).Nodup := by
  rw [((perm_normalEntries hnodup).map Prod.fst).nodup_iff, List.map_map]
  exact hnodup

/-- In the normal form of an object, the normal forms of its values are found. -/
theorem find?_normalEntries {entries : List (String × Json)}
    (hnodup : (entries.map Prod.fst).Nodup) (name : String) :
    find? name (normalEntries [] entries) = (find? name entries).map normal := by
  rw [find?_eq_lookup, lookup_of_perm (perm_normalEntries hnodup) (nodup_normalEntries hnodup),
    ← find?_eq_lookup]
  clear hnodup
  induction entries with
  | nil => rfl
  | cons entry rest ih =>
      obtain ⟨stored, value⟩ := entry
      rw [List.map_cons, find?, find?, ih]
      split <;> rfl

/-! ## Sorted entries -/

/-- The names stand in order, each once. -/
def Sorted (entries : List (String × Json)) : Prop :=
  entries.Pairwise fun first second => first.1 < second.1

theorem Sorted.nodup {entries : List (String × Json)} (h : Sorted entries) :
    (entries.map Prod.fst).Nodup :=
  List.pairwise_map.mpr (h.imp ne_of_lt)

/-- Entries that are sorted are determined by what they are, in any order. -/
theorem Sorted.eq_of_perm {entries others : List (String × Json)} (h : Sorted entries)
    (hothers : Sorted others) (hperm : entries.Perm others) : entries = others :=
  hperm.eq_of_pairwise (fun _ _ _ _ hlt hgt => absurd hgt hlt.asymm) h hothers

theorem Sorted.insert {sorted : List (String × Json)} (h : Sorted sorted) (name : String)
    (value : Json) : Sorted (insertSorted name value sorted) := by
  induction sorted with
  | nil => exact List.pairwise_singleton _ _
  | cons first rest ih =>
      obtain ⟨stored, old⟩ := first
      obtain ⟨hfirst, hrest⟩ := List.pairwise_cons.mp h
      rw [insertSorted]
      split
      case isTrue hsame => exact List.pairwise_cons.mpr ⟨hsame ▸ hfirst, hrest⟩
      case isFalse hne =>
        split
        case isTrue hbefore =>
          refine List.pairwise_cons.mpr ⟨fun entry hentry => ?_, h⟩
          rcases List.mem_cons.mp hentry with rfl | hentry
          · exact hbefore
          · exact hbefore.trans (hfirst entry hentry)
        case isFalse hnot =>
          refine List.pairwise_cons.mpr ⟨fun entry hentry => ?_, ih hrest⟩
          rcases mem_insertSorted hentry with rfl | hentry
          · exact lt_of_le_of_ne (not_lt.mp hnot) hne
          · exact hfirst entry hentry

theorem Sorted.normalEntries {sorted : List (String × Json)} (h : Sorted sorted)
    (entries : List (String × Json)) : Sorted (normalEntries sorted entries) := by
  induction entries generalizing sorted with
  | nil => exact h
  | cons entry rest ih => exact ih (h.insert entry.1 entry.2.normal)

theorem sorted_normalEntries (entries : List (String × Json)) : Sorted (normalEntries [] entries) :=
  Sorted.normalEntries .nil entries

/-! ## Main results -/

/-- Sorted entries whose values are in normal form stay as they are. -/
theorem Sorted.normalEntries_eq {entries : List (String × Json)} (h : Sorted entries)
    (hnormal : ∀ entry ∈ entries, entry.2.normal = entry.2) :
    Json.normalEntries [] entries = entries := by
  have hsame : entries.map (fun entry => (entry.1, entry.2.normal)) = entries := by
    refine (List.map_congr_left fun entry hentry => ?_).trans entries.map_id
    rw [hnormal entry hentry]
    rfl
  have hperm := perm_normalEntries h.nodup
  rw [hsame] at hperm
  exact (sorted_normalEntries entries).eq_of_perm h hperm

mutual

/-- **A normal form is in normal form.** -/
theorem normal_normal (json : Json) : json.normal.normal = json.normal := by
  cases json with
  | null | bool | number | string => rfl
  | array items => rw [normal, normal, normalItems_normalItems items]
  | object entries =>
      have hvalues : ∀ pair ∈ normalEntries [] entries, pair.2.normal = pair.2 := by
        intro pair hpair
        obtain ⟨entry, hentry, rfl⟩ := mem_normalEntries hpair
        exact normal_normal_of_mem entries entry hentry
      rw [normal, normal, (sorted_normalEntries entries).normalEntries_eq hvalues]

theorem normalItems_normalItems (items : List Json) :
    normalItems (normalItems items) = normalItems items := by
  cases items with
  | nil => rfl
  | cons item rest =>
      rw [normalItems, normalItems, normal_normal item, normalItems_normalItems rest]

theorem normal_normal_of_mem (entries : List (String × Json)) :
    ∀ entry ∈ entries, entry.2.normal.normal = entry.2.normal := by
  cases entries with
  | nil => simp
  | cons entry rest =>
      exact List.forall_mem_cons.mpr ⟨normal_normal entry.2, normal_normal_of_mem rest⟩

end

mutual

/-- The numbers in a normal form are numbers of the value. -/
theorem allNumbers_normal {kind : Number → Bool} (json : Json) (h : json.allNumbers kind = true) :
    json.normal.allNumbers kind = true := by
  cases json with
  | null | bool | number | string => exact h
  | array items => exact allNumbersOfItems_normalItems items h
  | object entries =>
      rw [normal, allNumbers, allNumbersOfEntries_iff]
      intro pair hpair
      obtain ⟨entry, hentry, rfl⟩ := mem_normalEntries hpair
      exact allNumbers_normal_of_mem entries h entry hentry

theorem allNumbersOfItems_normalItems {kind : Number → Bool} (items : List Json)
    (h : allNumbersOfItems kind items = true) : allNumbersOfItems kind (normalItems items) = true := by
  cases items with
  | nil => rfl
  | cons item rest =>
      rw [allNumbersOfItems, Bool.and_eq_true] at h
      rw [normalItems, allNumbersOfItems, allNumbers_normal item h.1,
        allNumbersOfItems_normalItems rest h.2]
      rfl

theorem allNumbers_normal_of_mem {kind : Number → Bool} (entries : List (String × Json))
    (h : allNumbersOfEntries kind entries = true) :
    ∀ entry ∈ entries, entry.2.normal.allNumbers kind = true := by
  cases entries with
  | nil => simp
  | cons entry rest =>
      rw [allNumbersOfEntries, Bool.and_eq_true] at h
      exact List.forall_mem_cons.mpr
        ⟨allNumbers_normal entry.2 h.1, allNumbers_normal_of_mem rest h.2⟩

end

end DebugBridge.Json
