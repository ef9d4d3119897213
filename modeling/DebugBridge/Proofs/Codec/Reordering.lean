import DebugBridge.Codec.Value
import DebugBridge.Proofs.Json.Normal
import DebugBridge.Proofs.Value.Folding
import Mathlib.Data.List.Perm.Basic

/-!
# Values as JSON and back

A value comes back from its JSON form.  From the normal form it comes back with the entries of its
tuples in another order, at every level, and with nothing else changed.  Names tell the entries of a
tuple apart in both; a value in which each tuple has each name once is *proper*, as those are that a
debugger prints.

## Strategy

Decoding the entries of an object is compared with the entries to be had by `List.Forall₂`
(`Decodes`), which says nothing about names.  Distinct names come in once, in
`entriesOfJson?_of_nodup`.  For the normal form, `List.perm_comp_forall₂` takes the permutation of
the JSON entries over to the entries that are decoded from them.

## Main statements

* `ofJson?_toJson`: a proper value comes back.
* `exists_reordered`: from the normal form it comes back reordered.
* `Reordered.get?`, `Reordered.text?`: what is looked up does not depend on the order.
-/

namespace DebugBridge

namespace Value

/-! ## Proper values -/

/-- No name is there twice, in any tuple of the value. -/
def IsProper (value : Value) : Prop :=
  ∀ entries, value.HasTuple entries → (entries.map Prod.fst).Nodup

theorem isProper_text (content : String) : (text content).IsProper := by
  intro entries h
  cases h

theorem isProper_list {items : List Value} :
    (list items).IsProper ↔ ∀ item ∈ items, item.IsProper := by
  constructor
  · intro h item hitem entries hentries
    exact h entries (.item hitem hentries)
  · intro h entries hentries
    cases hentries with
    | item hitem hentries => exact h _ hitem entries hentries

theorem isProper_tuple {entries : Entries} :
    (tuple entries).IsProper ↔
      (entries.map Prod.fst).Nodup ∧ ∀ pair ∈ entries, pair.2.IsProper := by
  constructor
  · intro h
    exact ⟨h entries (.self entries), fun pair hpair inner hinner => h inner (.entry hpair hinner)⟩
  · rintro ⟨hnodup, h⟩ inner hinner
    cases hinner with
    | self => exact hnodup
    | entry hpair hinner => exact h _ hpair inner hinner

namespace Entries

theorem nodup_foldAll (entries pairs : Entries) (h : (entries.map Prod.fst).Nodup) :
    ((entries.foldAll pairs).map Prod.fst).Nodup := by
  induction pairs generalizing entries with
  | nil => exact h
  | cons pair rest ih =>
      apply ih
      show ((entries.upsert _ _ _).map Prod.fst).Nodup
      rw [map_fst_upsert]
      split
      · exact h
      · next hnew =>
        rw [List.nodup_append]
        refine ⟨h, List.nodup_singleton _, ?_⟩
        rintro name hname _ hsingle rfl
        rw [List.mem_singleton.mp hsingle] at hname
        exact hnew hname

end Entries

/-- The entries that are read from a text make a proper tuple. -/
theorem isProper_of_readEntries {input : List Char} {entries : Entries}
    (h : readEntries input = .ok entries) : (tuple entries).IsProper := by
  obtain ⟨results, -, rfl⟩ := readEntries_eq_ok_iff.mp h
  intro inner hinner
  obtain ⟨inside, rfl⟩ : ∃ inside, inner = Entries.collect (Grammar.namedValues inside) := by
    rcases hinner.of_collect with rfl | ⟨pair, hpair, hinner⟩
    · exact ⟨results, rfl⟩
    · obtain ⟨inside, -, rfl⟩ := hasTuple_namedValues results hpair hinner
      exact ⟨inside, rfl⟩
  exact Entries.nodup_foldAll [] _ List.nodup_nil

/-! ## Decoding -/

/-- A JSON entry stands for the entry of a tuple. -/
def Decodes (entry : String × Json) (pair : String × Value) : Prop :=
  entry.1 = pair.1 ∧ ofJson? entry.2 = some pair.2

theorem map_fst_of_decodes {jsons : List (String × Json)} {entries : Entries}
    (h : List.Forall₂ Decodes jsons entries) : jsons.map Prod.fst = entries.map Prod.fst := by
  induction h with
  | nil => rfl
  | cons hfirst _ ih => rw [List.map_cons, List.map_cons, hfirst.1, ih]

/-- Entries with distinct names are decoded one by one. -/
theorem entriesOfJson?_of_nodup {jsons : List (String × Json)} {entries : Entries}
    (h : List.Forall₂ Decodes jsons entries) (found : Entries)
    (hnodup : ((found ++ entries).map Prod.fst).Nodup) :
    entriesOfJson? found jsons = some (found ++ entries) := by
  induction h generalizing found with
  | nil => rw [entriesOfJson?, List.append_nil]
  | @cons entry pair jsons entries hdecodes _ ih =>
      obtain ⟨name, json⟩ := entry
      obtain ⟨rfl, hvalue⟩ := hdecodes
      have hnew : pair.1 ∉ found.map Prod.fst := by
        intro hmem
        rw [List.map_append, List.nodup_append] at hnodup
        exact hnodup.2.2 _ hmem _ (by simp) rfl
      have hrest := ih (found ++ [pair]) (by simpa using hnodup)
      rw [List.append_assoc, List.singleton_append] at hrest
      simp only [entriesOfJson?, hvalue, Option.bind_eq_bind, Option.bind_some]
      rw [Entries.set, Entries.upsert_of_not_mem hnew, hrest]

mutual

/-- A proper value comes back from its JSON form. -/
theorem ofJson?_toJson (value : Value) (h : value.IsProper) :
    ofJson? value.toJson = some value := by
  cases value with
  | text content => rfl
  | list items =>
      rw [toJson, ofJson?, itemsOfJson?_itemsToJson items (isProper_list.mp h), Option.map_some]
  | tuple entries =>
      obtain ⟨hnodup, hvalues⟩ := isProper_tuple.mp h
      have hdecodes := decodes_entriesToJson entries hvalues
      rw [toJson, ofJson?, entriesOfJson?_of_nodup hdecodes [] hnodup, Option.map_some,
        List.nil_append]

theorem itemsOfJson?_itemsToJson (items : List Value) (h : ∀ item ∈ items, item.IsProper) :
    itemsOfJson? (itemsToJson items) = some items := by
  cases items with
  | nil => rfl
  | cons item rest =>
      rw [List.forall_mem_cons] at h
      rw [itemsToJson, itemsOfJson?, ofJson?_toJson item h.1, itemsOfJson?_itemsToJson rest h.2]
      rfl

theorem decodes_entriesToJson (entries : Entries) (h : ∀ pair ∈ entries, pair.2.IsProper) :
    List.Forall₂ Decodes (entriesToJson entries) entries := by
  cases entries with
  | nil => exact .nil
  | cons pair rest =>
      rw [List.forall_mem_cons] at h
      exact .cons ⟨rfl, ofJson?_toJson pair.2 h.1⟩ (decodes_entriesToJson rest h.2)

end

theorem decoder_toJson {value : Value} (h : value.IsProper) :
    Value.decoder value.toJson = .ok value := by
  rw [decoder, ofJson?_toJson value h]

theorem map_fst_entriesToJson (entries : Entries) :
    (entriesToJson entries).map Prod.fst = entries.map Prod.fst := by
  induction entries with
  | nil => rfl
  | cons pair rest ih => rw [entriesToJson, List.map_cons, List.map_cons, ih]

/-! ## Reordered values -/

/-- Two values differ by the order of the entries in their tuples, at every level, at most. -/
inductive Reordered : Value → Value → Prop
  | text (content : String) : Reordered (text content) (text content)
  | list {items others : List Value} (h : List.Forall₂ Reordered items others) :
      Reordered (list items) (list others)
  | tuple {entries middle others : Entries} (hperm : entries.Perm middle)
      (hnames : middle.map Prod.fst = others.map Prod.fst)
      (hvalues : List.Forall₂ Reordered (middle.map Prod.snd) (others.map Prod.snd)) :
      Reordered (tuple entries) (tuple others)

/-- An entry corresponds to another one: the names are the same, and the values are reordered. -/
def Corresponds (pair other : String × Value) : Prop :=
  pair.1 = other.1 ∧ Reordered pair.2 other.2

theorem forall₂_corresponds_iff {entries others : Entries} :
    List.Forall₂ Corresponds entries others ↔ entries.map Prod.fst = others.map Prod.fst ∧
      List.Forall₂ Reordered (entries.map Prod.snd) (others.map Prod.snd) := by
  constructor
  · intro h
    induction h with
    | nil => exact ⟨rfl, .nil⟩
    | cons hfirst _ ih => exact ⟨by simp [hfirst.1, ih.1], .cons hfirst.2 ih.2⟩
  · rintro ⟨hnames, hvalues⟩
    induction entries generalizing others with
    | nil =>
        cases others with
        | nil => exact .nil
        | cons other rest => cases hnames
    | cons pair rest ih =>
        cases others with
        | nil => cases hnames
        | cons other more =>
            rw [List.map_cons, List.map_cons, List.cons.injEq] at hnames
            rw [List.map_cons, List.map_cons, List.forall₂_cons] at hvalues
            exact .cons ⟨hnames.1, hvalues.1⟩ (ih hnames.2 hvalues.2)

theorem reordered_tuple_iff {entries others : Entries} :
    Reordered (tuple entries) (tuple others) ↔
      ∃ middle : Entries, entries.Perm middle ∧ List.Forall₂ Corresponds middle others := by
  constructor
  · intro h
    cases h with
    | tuple hperm hnames hvalues =>
        exact ⟨_, hperm, forall₂_corresponds_iff.mpr ⟨hnames, hvalues⟩⟩
  · rintro ⟨middle, hperm, hmiddle⟩
    obtain ⟨hnames, hvalues⟩ := forall₂_corresponds_iff.mp hmiddle
    exact .tuple hperm hnames hvalues

/-- The entries of an object in normal form are decoded to the entries of the tuple in some
order. -/
theorem exists_decodes_normalEntries {jsons : List (String × Json)} {entries others : Entries}
    (hdecodes : List.Forall₂ Decodes (jsons.map fun entry => (entry.1, entry.2.normal)) others)
    (hothers : List.Forall₂ Corresponds entries others)
    (hjsons : (jsons.map Prod.fst).Nodup) :
    ∃ sorted, entriesOfJson? [] (Json.normalEntries [] jsons) = some sorted ∧
      Reordered (tuple entries) (tuple sorted) := by
  obtain ⟨sorted, hsorted, hperm⟩ :=
    List.perm_comp_forall₂ (Json.perm_normalEntries hjsons) hdecodes
  have hnodup : (([] ++ sorted).map Prod.fst).Nodup :=
    map_fst_of_decodes hsorted ▸ Json.nodup_normalEntries hjsons
  refine ⟨sorted, entriesOfJson?_of_nodup hsorted [] hnodup, reordered_tuple_iff.mpr ?_⟩
  -- the order in which the entries were decoded is one of the entries themselves
  obtain ⟨middle, hmiddle, hback⟩ := List.perm_comp_forall₂ hperm hothers.flip
  exact ⟨middle, hback.symm, hmiddle.flip⟩

mutual

/-- From the normal form of its JSON form, a proper value comes back reordered. -/
theorem exists_reordered (value : Value) (h : value.IsProper) :
    ∃ other, ofJson? value.toJson.normal = some other ∧ Reordered value other := by
  cases value with
  | text content => exact ⟨_, rfl, .text content⟩
  | list items =>
      obtain ⟨others, hothers, hreordered⟩ := exists_reordered_items items (isProper_list.mp h)
      exact ⟨list others, by rw [toJson, Json.normal, ofJson?, hothers, Option.map_some],
        .list hreordered⟩
  | tuple entries =>
      obtain ⟨hnodup, hvalues⟩ := isProper_tuple.mp h
      obtain ⟨others, hdecodes, hcorrespond⟩ := exists_corresponding_entries entries hvalues
      obtain ⟨sorted, hsorted, hreordered⟩ := exists_decodes_normalEntries hdecodes hcorrespond
        (by rwa [map_fst_entriesToJson])
      exact ⟨tuple sorted, by rw [toJson, Json.normal, ofJson?, hsorted, Option.map_some],
        hreordered⟩

theorem exists_reordered_items (items : List Value) (h : ∀ item ∈ items, item.IsProper) :
    ∃ others, itemsOfJson? (Json.normalItems (itemsToJson items)) = some others ∧
      List.Forall₂ Reordered items others := by
  cases items with
  | nil => exact ⟨[], rfl, .nil⟩
  | cons item rest =>
      rw [List.forall_mem_cons] at h
      obtain ⟨other, hother, hfirst⟩ := exists_reordered item h.1
      obtain ⟨others, hothers, hrest⟩ := exists_reordered_items rest h.2
      refine ⟨other :: others, ?_, .cons hfirst hrest⟩
      rw [itemsToJson, Json.normalItems, itemsOfJson?, hother, hothers]
      rfl

theorem exists_corresponding_entries (entries : Entries)
    (h : ∀ pair ∈ entries, pair.2.IsProper) :
    ∃ others : Entries, List.Forall₂ Decodes
        ((entriesToJson entries).map fun entry => (entry.1, entry.2.normal)) others ∧
      List.Forall₂ Corresponds entries others := by
  cases entries with
  | nil => exact ⟨[], .nil, .nil⟩
  | cons pair rest =>
      rw [List.forall_mem_cons] at h
      obtain ⟨other, hother, hfirst⟩ := exists_reordered pair.2 h.1
      obtain ⟨others, hothers, hrest⟩ := exists_corresponding_entries rest h.2
      exact ⟨(pair.1, other) :: others, .cons ⟨rfl, hother⟩ hothers, .cons ⟨rfl, hfirst⟩ hrest⟩

end

/-! ## Looking names up -/

theorem Entries.find?_eq_lookup (name : String) (entries : Entries) :
    entries.find? name = entries.lookup name := by
  induction entries with
  | nil => rfl
  | cons pair rest ih =>
      obtain ⟨stored, value⟩ := pair
      by_cases h : name = stored
      · simp [find?, h]
      · rw [find?, if_neg (Ne.symm h), lookup_cons_ne h, ih]

theorem find?_of_corresponds {entries others : Entries}
    (h : List.Forall₂ Corresponds entries others) (name : String) :
    Option.Rel Reordered (entries.find? name) (others.find? name) := by
  induction h with
  | nil => exact .none
  | @cons pair other _ _ hfirst _ ih =>
      rw [Entries.find?, Entries.find?, hfirst.1]
      split
      · exact .some hfirst.2
      · exact ih

variable {value other : Value}

/-- Under a name of a proper value, the same value is found in any order, reordered. -/
theorem Reordered.get? (h : Reordered value other) (hproper : value.IsProper) (name : String) :
    Option.Rel Reordered (value.get? name) (other.get? name) := by
  cases value with
  | text content =>
      cases h
      exact .none
  | list items =>
      cases h
      exact .none
  | tuple entries =>
      cases other with
      | text | list => cases h
      | tuple others =>
          obtain ⟨middle, hperm, hmiddle⟩ := reordered_tuple_iff.mp h
          show Option.Rel Reordered (Entries.find? name entries) (Entries.find? name others)
          rw [Entries.find?_eq_lookup, lookup_of_perm hperm (isProper_tuple.mp hproper).1,
            ← Entries.find?_eq_lookup]
          exact find?_of_corresponds hmiddle name

theorem IsProper.of_get? (h : value.IsProper) {name : String} {found : Value}
    (hfound : value.get? name = some found) : found.IsProper := by
  cases value with
  | text | list => cases hfound
  | tuple entries =>
      obtain ⟨hnodup, hvalues⟩ := isProper_tuple.mp h
      have hlookup : Entries.find? name entries = some found := hfound
      rw [Entries.find?_eq_lookup, lookup_eq_some_iff_mem hnodup] at hlookup
      exact hvalues _ hlookup

theorem Reordered.asText?_eq (h : Reordered value other) : value.asText? = other.asText? := by
  cases h <;> rfl

/-- The texts of a proper value do not depend on the order of its entries. -/
theorem Reordered.text?_eq (h : Reordered value other) (hproper : value.IsProper) (name : String) :
    value.text? name = other.text? name := by
  have hget := h.get? hproper name
  rw [Value.text?, Value.text?]
  generalize value.get? name = found, other.get? name = found' at hget
  cases hget with
  | none => rfl
  | some hfound => exact hfound.asText?_eq

theorem Reordered.word?_eq (h : Reordered value other) (hproper : value.IsProper) (name : String) :
    value.word? name = other.word? name := by
  rw [word?, word?, h.text?_eq hproper]

end Value

end DebugBridge
