import DebugBridge.Proofs.Value.Reading

/-!
# Folding repeated names

What a tuple stores under a name is determined by the values that arrived under it.  A single value
is stored as it is, and two or more as one list.  When the first of several values is a list itself,
it is taken for the list of the values so far: the later ones are appended to its items, and the
boundary between the two is lost.

## Strategy

`Entries.find?_foldAll` follows one name through the folding of a whole sequence.  For the tuples
inside a text that was read, `hasTuple_value` goes down the derivation of the text: each of
them collects the results between its braces.

## Main statements

* `list_swallows_later_values`: a list that arrives first takes the later values into itself.
* `repeated_name_folds`: what is stored under a name, and when that is the list of all its values.
-/

namespace DebugBridge.Value

open Grammar

/-! ## One name -/

/-- What a stored value counts for: the items of a list, else the value by itself. -/
def elements : Value → List Value
  | list items => items
  | one => [one]

theorem joinedWith_eq (old newcomer : Value) :
    old.joinedWith newcomer = list (old.elements ++ [newcomer]) := by
  cases old <;> rfl

/-- What is stored for values that arrived under one name. -/
def gathered? : List Value → Option Value
  | [] => none
  | [only] => some only
  | first :: second :: others => some (list (first.elements ++ second :: others))

theorem gathered?_joinedWith_cons (old newcomer : Value) (others : List Value) :
    gathered? (old.joinedWith newcomer :: others) = gathered? (old :: newcomer :: others) := by
  rw [joinedWith_eq]
  cases others with
  | nil => rfl
  | cons second others => simp [gathered?, elements]

/-- A stored value counts for the values that arrived, unless the first of them is a list. -/
theorem elements_append_eq_cons_iff (first : Value) (others : List Value) :
    first.elements ++ others = first :: others ↔ ∀ items, first ≠ list items := by
  constructor
  · rintro h items rfl
    have hitems : items = [list items] := (List.append_left_inj others).mp h
    -- a list is no item of itself
    have hsize := congrArg sizeOf hitems
    simp at hsize
    omega
  · intro hfirst
    cases first with
    | list items => exact absurd rfl (hfirst items)
    | text | tuple => rfl

namespace Entries

/-- The values that arrive under a name, first to last. -/
def arrivals (name : String) (pairs : Entries) : List Value :=
  pairs.filterMap fun pair => if pair.1 = name then some pair.2 else none

theorem arrivals_cons_self (name : String) (value : Value) (pairs : Entries) :
    arrivals name ((name, value) :: pairs) = value :: arrivals name pairs := by
  simp [arrivals]

theorem arrivals_cons_ne {name other : String} (h : other ≠ name) (value : Value)
    (pairs : Entries) : arrivals name ((other, value) :: pairs) = arrivals name pairs := by
  simp [arrivals, h]

theorem find?_upsert_self (name : String) (value : Value) (update : Value → Value)
    (entries : Entries) :
    (entries.upsert name value update).find? name =
      some (((entries.find? name).map update).getD value) := by
  induction entries with
  | nil => simp [upsert, find?]
  | cons pair rest ih =>
      obtain ⟨stored, old⟩ := pair
      by_cases h : stored = name <;> simp [upsert, find?, h, ih]

theorem find?_upsert_ne {name other : String} (h : other ≠ name) (value : Value)
    (update : Value → Value) (entries : Entries) :
    (entries.upsert other value update).find? name = entries.find? name := by
  induction entries with
  | nil => simp [upsert, find?, h]
  | cons pair rest ih =>
      obtain ⟨stored, old⟩ := pair
      by_cases hstored : stored = other
      · subst hstored
        simp [upsert, find?, h]
      · simp [upsert, find?, hstored, ih]

/-- Storing a value adds its name at most, and only if that is not there. -/
theorem map_fst_upsert (name : String) (value : Value) (update : Value → Value)
    (entries : Entries) :
    (entries.upsert name value update).map Prod.fst =
      if name ∈ entries.map Prod.fst then entries.map Prod.fst
      else entries.map Prod.fst ++ [name] := by
  induction entries with
  | nil => rfl
  | cons pair rest ih =>
      obtain ⟨stored, old⟩ := pair
      rw [upsert]
      by_cases h : stored = name
      · simp [h]
      · rw [if_neg h, List.map_cons, ih]
        by_cases hmem : name ∈ rest.map Prod.fst
        · simp [hmem]
        · simp [hmem, Ne.symm h]

/-- A value whose name is not there comes at the end. -/
theorem upsert_of_not_mem {name : String} {entries : Entries} (h : name ∉ entries.map Prod.fst)
    (value : Value) (update : Value → Value) :
    entries.upsert name value update = entries ++ [(name, value)] := by
  induction entries with
  | nil => rfl
  | cons pair rest ih =>
      rw [List.map_cons, List.mem_cons, not_or] at h
      rw [upsert, if_neg (Ne.symm h.1), ih h.2, List.cons_append]

theorem find?_fold_self (name : String) (value : Value) (entries : Entries) :
    (entries.fold name value).find? name =
      gathered? ((entries.find? name).toList ++ [value]) := by
  rw [fold, find?_upsert_self]
  cases entries.find? name <;> simp [gathered?, joinedWith_eq]

/-- What is stored under a name depends on the values that arrive under it, and on nothing else. -/
theorem find?_foldAll (name : String) (pairs entries : Entries) :
    (entries.foldAll pairs).find? name =
      gathered? ((entries.find? name).toList ++ arrivals name pairs) := by
  induction pairs generalizing entries with
  | nil => cases h : entries.find? name <;> simp [foldAll, arrivals, gathered?, h]
  | cons pair rest ih =>
      obtain ⟨other, value⟩ := pair
      show ((entries.fold other value).foldAll rest).find? name = _
      rw [ih]
      by_cases h : other = name
      · subst h
        rw [find?_fold_self, arrivals_cons_self]
        cases entries.find? other with
        | none => rfl
        | some old =>
            show gathered? (list (old.elements ++ [value]) :: _) = _
            rw [← joinedWith_eq, gathered?_joinedWith_cons]
            rfl
      · rw [fold, find?_upsert_ne h, arrivals_cons_ne h]

theorem find?_collect (name : String) (pairs : Entries) :
    (collect pairs).find? name = gathered? (arrivals name pairs) :=
  find?_foldAll name pairs []

theorem foldAll_of_nodup (entries pairs : Entries)
    (h : ((entries ++ pairs).map Prod.fst).Nodup) : entries.foldAll pairs = entries ++ pairs := by
  induction pairs generalizing entries with
  | nil => exact (List.append_nil entries).symm
  | cons pair rest ih =>
      have hnew : pair.1 ∉ entries.map Prod.fst := by
        intro hmem
        rw [List.map_append, List.nodup_append] at h
        exact h.2.2 _ hmem _ (by simp) rfl
      show (entries.fold pair.1 pair.2).foldAll rest = _
      rw [fold, upsert_of_not_mem hnew, ih _ (by simpa using h), List.append_assoc,
        List.singleton_append]

/-- Values with distinct names are collected as they are. -/
theorem collect_of_nodup {entries : Entries} (h : (entries.map Prod.fst).Nodup) :
    collect entries = entries :=
  foldAll_of_nodup [] entries h

end Entries

theorem all_tuple_collect (name : String) (pairs : Entries) :
    (tuple (Entries.collect pairs)).all name = match pairs.arrivals name with
      | [] => []
      | first :: others => first.elements ++ others := by
  have hget : (tuple (Entries.collect pairs)).get? name = gathered? (pairs.arrivals name) :=
    Entries.find?_collect name pairs
  rw [all, hget]
  match pairs.arrivals name with
  | [] => rfl
  | [only] => cases only <;> simp [gathered?, elements]
  | first :: second :: others => rfl

/-! ## Tuples inside a text -/

/-- A tuple is somewhere in a value. -/
inductive HasTuple : Value → Entries → Prop
  | self (entries : Entries) : HasTuple (tuple entries) entries
  | item {items : List Value} {item : Value} {entries : Entries} (hitem : item ∈ items)
      (h : HasTuple item entries) : HasTuple (list items) entries
  | entry {outer : Entries} {pair : String × Value} {entries : Entries} (hpair : pair ∈ outer)
      (h : HasTuple pair.2 entries) : HasTuple (tuple outer) entries

variable {entries : Entries}

/-- Joining two values makes no new tuple. -/
theorem HasTuple.of_joinedWith {old newcomer : Value}
    (h : (old.joinedWith newcomer).HasTuple entries) :
    old.HasTuple entries ∨ newcomer.HasTuple entries := by
  rw [joinedWith_eq] at h
  cases h with
  | @item _ item _ hitem h =>
      rcases List.mem_append.mp hitem with hold | hnew
      · cases old with
        | list items => exact .inl (.item hold h)
        | text | tuple =>
            rw [List.mem_singleton.mp hold] at h
            exact .inl h
      · rw [List.mem_singleton.mp hnew] at h
        exact .inr h

theorem exists_mem_of_mem_fold {stored : Entries} {name : String} {value : Value}
    {pair : String × Value} (hpair : pair ∈ stored.fold name value)
    (h : pair.2.HasTuple entries) :
    (∃ old ∈ stored, old.2.HasTuple entries) ∨ value.HasTuple entries := by
  induction stored with
  | nil =>
      rw [Entries.fold, Entries.upsert, List.mem_singleton] at hpair
      subst hpair
      exact .inr h
  | cons first rest ih =>
      obtain ⟨other, old⟩ := first
      rw [Entries.fold, Entries.upsert] at hpair
      split at hpair
      · rcases List.mem_cons.mp hpair with rfl | hrest
        · exact h.of_joinedWith.imp_left fun hold => ⟨_, List.mem_cons_self, hold⟩
        · exact .inl ⟨pair, List.mem_cons_of_mem _ hrest, h⟩
      · rcases List.mem_cons.mp hpair with rfl | hrest
        · exact .inl ⟨_, List.mem_cons_self, h⟩
        · refine (ih hrest).imp_left ?_
          rintro ⟨found, hfound, hold⟩
          exact ⟨found, List.mem_cons_of_mem _ hfound, hold⟩

/-- A tuple inside a collection was inside one of the values that were collected. -/
theorem exists_mem_of_mem_foldAll (stored pairs : Entries) {pair : String × Value}
    (hpair : pair ∈ stored.foldAll pairs) (h : pair.2.HasTuple entries) :
    ∃ found ∈ stored ++ pairs, found.2.HasTuple entries := by
  induction pairs generalizing stored with
  | nil => exact ⟨pair, List.mem_append_left _ hpair, h⟩
  | cons first rest ih =>
      obtain ⟨found, hfound, htuple⟩ := ih (stored.fold first.1 first.2) hpair
      rcases List.mem_append.mp hfound with hfolded | hrest
      · rcases exists_mem_of_mem_fold hfolded htuple with ⟨old, hold, htuple⟩ | hvalue
        · exact ⟨old, List.mem_append_left _ hold, htuple⟩
        · exact ⟨first, by simp, hvalue⟩
      · exact ⟨found, by simp [hrest], htuple⟩

theorem HasTuple.of_collect {pairs : Entries}
    (h : (tuple (Entries.collect pairs)).HasTuple entries) :
    entries = Entries.collect pairs ∨ ∃ pair ∈ pairs, pair.2.HasTuple entries := by
  cases h with
  | self => exact .inl rfl
  | entry hpair h => exact .inr (exists_mem_of_mem_foldAll [] pairs hpair h)

mutual

/-- A tuple inside a value that was read collects results that make up a part of the text. -/
theorem hasTuple_value (tree : Tree) (h : tree.value.HasTuple entries) :
    ∃ results, resultsText results <:+: tree.text ∧
      entries = Entries.collect (namedValues results) := by
  cases tree with
  | quoted body =>
      rw [Tree.value] at h
      cases h
  | braces results =>
      rw [Tree.value] at h
      have hbraces : resultsText results <:+: (Tree.braces results).text :=
        ⟨['\x7b'], ['\x7d'], by simp⟩
      rcases h.of_collect with rfl | ⟨pair, hpair, h⟩
      · exact ⟨results, hbraces, rfl⟩
      · obtain ⟨inner, hinner, heq⟩ := hasTuple_namedValues results hpair h
        exact ⟨inner, hinner.trans hbraces, heq⟩
  | brackets items =>
      rw [Tree.value] at h
      cases h with
      | item hitem h =>
          obtain ⟨inner, hinner, heq⟩ := hasTuple_itemValues items hitem h
          exact ⟨inner, hinner.trans ⟨['['], [']'], by simp⟩, heq⟩
  | bare name value =>
      rw [Tree.value] at h
      cases h with
      | self => exact ⟨[(name, value)], by simp [resultsText, resultTexts], rfl⟩
      | entry hpair h =>
          rw [List.mem_singleton.mp hpair] at h
          obtain ⟨inner, hinner, heq⟩ := hasTuple_value value h
          exact ⟨inner, hinner.trans ⟨name.text ++ ['='], [], by simp⟩, heq⟩

theorem hasTuple_itemValues (items : List Tree) {item : Value} (hitem : item ∈ itemValues items)
    (h : item.HasTuple entries) :
    ∃ results, resultsText results <:+: itemsText items ∧
      entries = Entries.collect (namedValues results) := by
  cases items with
  | nil => simp [itemValues] at hitem
  | cons first others =>
      have htext := itemsText_cons_append first others []
      rw [List.append_nil] at htext
      rcases List.mem_cons.mp hitem with rfl | hothers
      · obtain ⟨inner, hinner, heq⟩ := hasTuple_value first h
        exact ⟨inner, hinner.trans (htext ▸ (List.prefix_append ..).isInfix), heq⟩
      · obtain ⟨inner, hinner, heq⟩ := hasTuple_itemValues others hothers h
        cases others with
        | nil => simp [itemValues] at hothers
        | cons next more =>
            refine ⟨inner, hinner.trans ⟨first.text ++ [','], [], ?_⟩, heq⟩
            simp [htext]

theorem hasTuple_namedValues (results : List (Name × Tree)) {pair : String × Value}
    (hpair : pair ∈ namedValues results) (h : pair.2.HasTuple entries) :
    ∃ inner, resultsText inner <:+: resultsText results ∧
      entries = Entries.collect (namedValues inner) := by
  cases results with
  | nil => simp [namedValues] at hpair
  | cons first others =>
      obtain ⟨name, value⟩ := first
      have htext := resultsText_cons_append name value others []
      rw [List.append_nil] at htext
      rcases List.mem_cons.mp hpair with rfl | hothers
      · obtain ⟨inner, hinner, heq⟩ := hasTuple_value value h
        refine ⟨inner, hinner.trans (htext ▸ ?_), heq⟩
        exact ⟨name.text ++ ['='], _, by simp; rfl⟩
      · obtain ⟨inner, hinner, heq⟩ := hasTuple_namedValues others hothers h
        cases others with
        | nil => simp [namedValues] at hothers
        | cons next more =>
            refine ⟨inner, hinner.trans ⟨name.text ++ '=' :: (value.text ++ [',']), [], ?_⟩, heq⟩
            simp [htext]

end

/-! ## Whole texts -/

/-- A list that arrives first under a name takes the later values into itself, so that what is
stored is not the list of the values. -/
theorem list_swallows_later_values :
    readEntries "a=[\"1\"],a=\"2\"".toList = .ok [("a", list [text "1", text "2"])] ∧
    ¬ ∀ (pairs : Entries) (name : String), 2 ≤ (pairs.arrivals name).length →
      (Entries.collect pairs).find? name = some (list (pairs.arrivals name)) := by
  refine ⟨by rfl, ?_⟩
  intro hclaim
  have hstored := hclaim [("a", list [text "1"]), ("a", text "2")] "a" (by decide)
  exact absurd hstored (by decide)

/-- What a tuple stores under a name, and what is looked up there, is given by the values that
arrived under it; with two or more this is the list of all of them, in order, exactly if the first
is no list.  Each tuple inside a text that is read collects results that make up a part of it. -/
theorem repeated_name_folds (name : String) :
    (∀ pairs : Entries,
      (Entries.collect pairs).find? name = gathered? (pairs.arrivals name) ∧
      (tuple (Entries.collect pairs)).all name = (match pairs.arrivals name with
        | [] => []
        | first :: others => first.elements ++ others) ∧
      (2 ≤ (pairs.arrivals name).length →
        ((Entries.collect pairs).find? name = some (list (pairs.arrivals name)) ∧
            (tuple (Entries.collect pairs)).all name = pairs.arrivals name ↔
          ∀ items, (pairs.arrivals name).head? ≠ some (list items)))) ∧
    (∀ input value entries, readValue input = .ok value → value.HasTuple entries →
      ∃ results, resultsText results <:+: input ∧
        entries = Entries.collect (namedValues results)) ∧
    (∀ input outer entries, readEntries input = .ok outer → (tuple outer).HasTuple entries →
      ∃ results, resultsText results <:+: input ∧
        entries = Entries.collect (namedValues results)) := by
  refine ⟨fun pairs => ?_, ?_, ?_⟩
  · have hfind := Entries.find?_collect name pairs
    have hall := all_tuple_collect name pairs
    refine ⟨hfind, hall, ?_⟩
    rw [hfind, hall]
    intro htwo
    match harrivals : pairs.arrivals name with
    | [] | [_] => simp [harrivals] at htwo
    | first :: second :: others =>
        simp only [gathered?, Option.some.injEq, list.injEq, and_self, List.head?_cons, ne_eq]
        exact elements_append_eq_cons_iff first (second :: others)
  · intro input value entries hread hentries
    obtain ⟨tree, rfl, rfl⟩ := readValue_eq_ok_iff.mp hread
    exact hasTuple_value tree hentries
  · intro input outer entries hread hentries
    obtain ⟨results, rfl, rfl⟩ := readEntries_eq_ok_iff.mp hread
    rcases hentries.of_collect with rfl | ⟨pair, hpair, h⟩
    · exact ⟨results, List.infix_rfl, rfl⟩
    · exact hasTuple_namedValues results hpair h

/-- Texts that arrive under one name, in a tuple inside a list, are folded into their list. -/
theorem repeated_name_folds_of_texts : ∃ entries results,
    readValue "[\x7ba=\"1\",b=\"x\",a=\"2\"\x7d]".toList = .ok (list [tuple entries]) ∧
      resultsText results <:+: "[\x7ba=\"1\",b=\"x\",a=\"2\"\x7d]".toList ∧
      entries = Entries.collect (namedValues results) ∧
      (Entries.collect [("a", text "1"), ("b", text "x"), ("a", text "2")]).find? "a" =
        some (list [text "1", text "2"]) ∧
      (tuple (Entries.collect [("a", text "1"), ("b", text "x"), ("a", text "2")])).all "a" =
        [text "1", text "2"] := by
  have hread : readValue "[\x7ba=\"1\",b=\"x\",a=\"2\"\x7d]".toList =
      .ok (list [tuple [("a", list [text "1", text "2"]), ("b", text "x")]]) := by rfl
  obtain ⟨hpairs, hvalues, -⟩ := repeated_name_folds "a"
  obtain ⟨results, hpart, heq⟩ := hvalues _ _ _ hread (.item (List.mem_singleton.mpr rfl) (.self _))
  obtain ⟨-, -, hlaw⟩ := hpairs [("a", text "1"), ("b", text "x"), ("a", text "2")]
  have hboth := (hlaw (by decide)).mpr (by simp [Entries.arrivals])
  exact ⟨_, results, hread, hpart, heq, hboth⟩

end DebugBridge.Value
