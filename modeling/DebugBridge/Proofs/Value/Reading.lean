import DebugBridge.Proofs.Except
import DebugBridge.Proofs.Value.Grammar
import DebugBridge.Value.Reader

/-!
# Reading follows the grammar

`readValue` accepts exactly the texts that a tree of the grammar derives, and answers what the tree
stands for; `readEntries` does the same for results with commas between them.

## Strategy

* A tree is read whatever comes behind its text (`readValueWithin_text`), since the last character
  of every tree closes it.
* Whatever is read was derived by a tree (`exists_tree_of_readValueWithin`), by induction on the
  budget of the readers.

Each direction is one induction over the three readers together.  The equations under "Steps of the
readers" say what one call does for each production, and stand between the two.
-/

namespace DebugBridge

namespace Value

open Grammar

/-- The tuple with named values folded into it, first to last. -/
def Entries.foldAll (entries pairs : Entries) : Entries :=
  pairs.foldl (fun entries pair => entries.fold pair.1 pair.2) entries

/-- What closes a list of results. -/
def Closing.text : Closing → List Char
  | brace => ['\x7d']
  | endOfText => []

/-! ## Quoted texts and names -/

theorem readText_bodyText (body : List Piece) (rest : List Char) :
    readText (bodyText body ++ '"' :: rest) = .ok (bodyText body, rest) := by
  induction body with
  | nil => rw [bodyText_nil, List.nil_append, readText]
  | cons piece others ih =>
      rw [bodyText_cons, List.append_assoc]
      cases piece with
      | plain c ordinary =>
          rw [Piece.text, List.singleton_append, readText, ih]
          · rfl
          · exact ordinary.1
          · exact fun hc _ => ordinary.2 hc
          · exact fun _ _ hc _ => ordinary.2 hc
      | escape escaped =>
          simp only [Piece.text, List.cons_append, List.nil_append]
          rw [readText, ih]
          rfl

theorem exists_body_of_readText {input text rest : List Char}
    (h : readText input = .ok (text, rest)) :
    ∃ body, input = bodyText body ++ '"' :: rest ∧ text = bodyText body := by
  induction input using readText.induct generalizing text with
  | case1 => simp [readText] at h
  | case2 tail =>
      rw [readText] at h
      cases h
      exact ⟨[], rfl, rfl⟩
  | case3 => simp [readText] at h
  | case4 escaped tail ih =>
      rw [readText, bind_eq_ok] at h
      obtain ⟨⟨text', rest'⟩, hread, hpure⟩ := h
      cases hpure
      obtain ⟨body, rfl, rfl⟩ := ih hread
      exact ⟨.escape escaped :: body, rfl, rfl⟩
  | case5 c tail hquote hlast hescape ih =>
      rw [readText.eq_5 c tail hquote hlast hescape, bind_eq_ok] at h
      obtain ⟨⟨text', rest'⟩, hread, hpure⟩ := h
      cases hpure
      obtain ⟨body, rfl, rfl⟩ := ih hread
      -- a backslash would have been read together with what is behind it
      have hbackslash : c ≠ '\\' := by
        intro hc
        cases htail : bodyText body ++ '"' :: rest with
        | nil => exact hlast hc htail
        | cons escaped others => exact hescape escaped others hc htail
      exact ⟨.plain c ⟨hquote, hbackslash⟩ :: body, rfl, rfl⟩

theorem endsName_iff {c : Char} : endsName c = true ↔ c ∈ delimiters := by
  simp [endsName, delimiters, or_assoc]

theorem endsName_eq_false_iff {c : Char} : endsName c = false ↔ c ∉ delimiters := by
  rw [← endsName_iff, Bool.not_eq_true]

theorem readName_text (name : Name) (rest : List Char) :
    readName (name.text ++ '=' :: rest) = .ok (String.ofList name.text, rest) := by
  have hfree : ∀ c ∈ name.text, (!endsName c) = true := by
    intro c hc
    rw [endsName_eq_false_iff.mpr (name.free c hc), Bool.not_false]
  have htake : (name.text ++ '=' :: rest).takeWhile (fun c => !endsName c) = name.text := by
    rw [List.takeWhile_append_of_pos hfree]
    simp [endsName]
  have hdrop : (name.text ++ '=' :: rest).dropWhile (fun c => !endsName c) = '=' :: rest := by
    rw [List.dropWhile_append_of_pos hfree]
    simp [endsName]
  unfold readName
  rw [htake, hdrop]
  cases hname : name.text with
  | nil => exact absurd hname name.nonempty
  | cons c others => rfl

/-- What comes before the first character that ends a name is free of such characters. -/
theorem free_of_mem_takeWhile {input : List Char} {c : Char}
    (hc : c ∈ input.takeWhile fun c => !endsName c) : c ∉ delimiters := by
  rw [← endsName_eq_false_iff]
  simpa using List.all_eq_true.mp List.all_takeWhile c hc

theorem exists_name_of_readName {input rest : List Char} {text : String}
    (h : readName input = .ok (text, rest)) :
    ∃ name : Name, input = name.text ++ '=' :: rest ∧ text = String.ofList name.text := by
  have hinput := List.takeWhile_append_dropWhile (p := fun c => !endsName c) (l := input)
  unfold readName at h
  split at h
  · simp at h
  · next rest' hdrop hempty =>
      cases h
      exact ⟨⟨input.takeWhile fun c => !endsName c, hempty, fun c => free_of_mem_takeWhile⟩,
        by rw [← hdrop, hinput], rfl⟩
  · simp at h
  · simp at h

/-! ## Steps of the readers -/

theorem readValueWithin_quote (budget : Nat) (tail : List Char) :
    readValueWithin (budget + 1) ('"' :: tail) =
      (readText tail).map fun read => (text (String.ofList read.1), read.2) := by
  rw [readValueWithin.eq_def]
  simp only [if_true]
  rfl

theorem readValueWithin_brace (budget : Nat) {tail : List Char}
    (htail : tail.head? ≠ some '\x7d') :
    readValueWithin (budget + 1) ('\x7b' :: tail) =
      (readEntriesWithin budget .brace [] tail).map fun read => (tuple read.1, read.2) := by
  rw [readValueWithin.eq_def]
  simp only [Char.reduceEq, if_false, if_true]
  split
  · simp at htail
  · rfl

theorem readValueWithin_bracket (budget : Nat) {tail : List Char}
    (htail : tail.head? ≠ some ']') :
    readValueWithin (budget + 1) ('[' :: tail) =
      (readItemsWithin budget tail).map fun read => (list read.1, read.2) := by
  rw [readValueWithin.eq_def]
  simp only [Char.reduceEq, if_false, if_true]
  split
  · simp at htail
  · rfl

theorem readValueWithin_bare (budget : Nat) {c : Char} (tail : List Char)
    (hquote : c ≠ '"') (hbrace : c ≠ '\x7b') (hbracket : c ≠ '[') :
    readValueWithin (budget + 1) (c :: tail) =
      readName (c :: tail) >>= fun name =>
        (readValueWithin budget name.2).map fun read => (tuple [(name.1, read.1)], read.2) := by
  rw [readValueWithin.eq_def]
  simp only [if_neg hquote, if_neg hbrace, if_neg hbracket]
  rfl

/-- Behind a name comes the value that it names. -/
theorem readValueWithin_name (budget : Nat) (name : Name) (tail : List Char) :
    readValueWithin (budget + 1) (name.text ++ '=' :: tail) =
      (readValueWithin budget tail).map fun read =>
        (tuple [(String.ofList name.text, read.1)], read.2) := by
  obtain ⟨c, others, hname, hfree⟩ := name.text_eq_cons
  have hread := readName_text name tail
  rw [hname, List.cons_append] at hread ⊢
  simp only [delimiters, List.mem_cons, not_or] at hfree
  rw [readValueWithin_bare budget _ hfree.2.2.2.2.2.2.1 hfree.2.2.1 hfree.2.2.2.2.1, hread]
  rfl

theorem head?_itemsText_append (item : Tree) (others : List Tree) (rest : List Char) :
    (itemsText (item :: others) ++ rest).head? ≠ some ']' := by
  rw [itemsText_cons_append]
  intro h
  obtain ⟨tail, htail⟩ := List.head?_eq_some_iff.mp h
  exact item.text_append_ne _ tail htail

theorem head?_resultsText_append (result : Name × Tree) (others : List (Name × Tree))
    (rest : List Char) : (resultsText (result :: others) ++ rest).head? ≠ some '\x7d' := by
  rw [resultsText_cons_append result.1 result.2]
  intro h
  obtain ⟨tail, htail⟩ := List.head?_eq_some_iff.mp h
  exact result.1.text_append_ne (by simp [delimiters]) htail

/-! ## What a tree derives is read

The budget that the readers are granted suffices because a character is worth two calls. -/

mutual

theorem readValueWithin_text (tree : Tree) (budget : Nat) (rest : List Char)
    (hbudget : 2 * tree.text.length ≤ budget) :
    readValueWithin budget (tree.text ++ rest) = .ok (tree.value, rest) := by
  cases budget with
  | zero => exact absurd tree.length_text_pos (by omega)
  | succ budget =>
      cases tree with
      | quoted body =>
          rw [Tree.text_quoted, List.cons_append, List.append_assoc, List.singleton_append,
            readValueWithin_quote, readText_bodyText]
          rfl
      | braces results =>
          cases results with
          | nil => rfl
          | cons result others =>
              rw [Tree.text_braces, List.length_cons, List.length_append] at hbudget
              have hentries := readEntriesWithin_resultsText result others budget
                .brace [] rest (by simp) (by omega)
              rw [Closing.text] at hentries
              rw [Tree.text_braces, List.cons_append, List.append_assoc,
                readValueWithin_brace budget (head?_resultsText_append result others _), hentries]
              rfl
      | brackets items =>
          cases items with
          | nil => rfl
          | cons item others =>
              rw [Tree.text_brackets, List.length_cons, List.length_append] at hbudget
              have hitems := readItemsWithin_itemsText item others budget rest
                (by omega)
              rw [Tree.text_brackets, List.cons_append, List.append_assoc, List.singleton_append,
                readValueWithin_bracket budget (head?_itemsText_append item others _), hitems]
              rfl
      | bare name value =>
          rw [Tree.text_bare, List.length_append, List.length_cons] at hbudget
          have hvalue := readValueWithin_text value budget rest (by omega)
          rw [Tree.text_bare, List.append_assoc, List.cons_append]
          rw [readValueWithin_name, hvalue]
          rfl
termination_by budget

theorem readItemsWithin_itemsText (item : Tree) (others : List Tree) (budget : Nat)
    (rest : List Char) (hbudget : 2 * (itemsText (item :: others)).length + 1 ≤ budget) :
    readItemsWithin budget (itemsText (item :: others) ++ ']' :: rest) =
      .ok (itemValues (item :: others), rest) := by
  cases budget with
  | zero => omega
  | succ budget =>
      -- each of the items is worth less than the budget that is left
      obtain ⟨hitem, hmore⟩ := length_itemsText_cons item others
      have hread := fun rest => readValueWithin_text item budget rest (by omega)
      rw [readItemsWithin, itemsText_cons_append, hread]
      cases others with
      | nil => rfl
      | cons next more =>
          have hlength := hmore (by simp)
          have hnext := readItemsWithin_itemsText next more budget rest (by omega)
          show (do let read ← readItemsWithin budget _; pure (item.value :: read.1, read.2)) = _
          rw [hnext]
          rfl
termination_by budget

theorem readEntriesWithin_resultsText (result : Name × Tree) (others : List (Name × Tree))
    (budget : Nat) (closing : Closing) (entries : Entries) (rest : List Char)
    (hrest : closing = .endOfText → rest = [])
    (hbudget : 2 * (resultsText (result :: others)).length + 1 ≤ budget) :
    readEntriesWithin budget closing entries
        (resultsText (result :: others) ++ (closing.text ++ rest)) =
      .ok (entries.foldAll (namedValues (result :: others)), rest) := by
  cases budget with
  | zero => omega
  | succ budget =>
      obtain ⟨name, value⟩ := result
      obtain ⟨hvalue, hmore⟩ := length_resultsText_cons name value others
      have hread := fun rest => readValueWithin_text value budget rest (by omega)
      rw [readEntriesWithin, resultsText_cons_append, readName_text]
      show (do let read ← readValueWithin budget _; _) = _
      rw [hread]
      cases others with
      | nil =>
          cases closing with
          | brace => rfl
          -- only the end of the text closes these results
          | endOfText =>
              rw [hrest rfl]
              rfl
      | cons next more =>
          have hlength := hmore (by simp)
          have hnext := readEntriesWithin_resultsText next more budget closing
            (entries.fold (String.ofList name.text) value.value) rest hrest (by omega)
          show readEntriesWithin budget closing _ _ = _
          rw [hnext]
          rfl
termination_by budget

end

/-! ## What is read has a tree -/

mutual

theorem exists_tree_of_readValueWithin {budget : Nat} {input rest : List Char} {value : Value}
    (h : readValueWithin budget input = .ok (value, rest)) :
    ∃ tree : Tree, input = tree.text ++ rest ∧ value = tree.value := by
  cases budget with
  | zero => simp [readValueWithin] at h
  | succ budget =>
      cases input with
      | nil => simp [readValueWithin] at h
      | cons c tail =>
          by_cases hquote : c = '"'
          · subst hquote
            rw [readValueWithin_quote, map_eq_ok] at h
            obtain ⟨⟨text, tail'⟩, hbody, heq⟩ := h
            cases heq
            obtain ⟨body, rfl, rfl⟩ := exists_body_of_readText hbody
            exact ⟨.quoted body, by simp, by rw [Tree.value]⟩
          by_cases hbrace : c = '\x7b'
          -- a closing brace right behind the first one leaves no results to read
          · subst hbrace
            by_cases hclosed : tail.head? = some '\x7d'
            · obtain ⟨tail', rfl⟩ := List.head?_eq_some_iff.mp hclosed
              cases h
              exact ⟨.braces [], by simp [resultsText, resultTexts], rfl⟩
            · rw [readValueWithin_brace budget hclosed, map_eq_ok] at h
              obtain ⟨⟨entries, tail'⟩, hentries, heq⟩ := h
              cases heq
              obtain ⟨result, others, rfl, -, rfl⟩ := exists_results_of_readEntriesWithin hentries
              exact ⟨.braces (result :: others), by simp [Closing.text], rfl⟩
          by_cases hbracket : c = '['
          · subst hbracket
            by_cases hclosed : tail.head? = some ']'
            · obtain ⟨tail', rfl⟩ := List.head?_eq_some_iff.mp hclosed
              cases h
              exact ⟨.brackets [], by simp [itemsText, itemTexts], rfl⟩
            · rw [readValueWithin_bracket budget hclosed, map_eq_ok] at h
              obtain ⟨⟨items, tail'⟩, hitems, heq⟩ := h
              cases heq
              obtain ⟨item, others, rfl, rfl⟩ := exists_items_of_readItemsWithin hitems
              exact ⟨.brackets (item :: others), by simp, rfl⟩
          · rw [readValueWithin_bare budget tail hquote hbrace hbracket, bind_eq_ok] at h
            obtain ⟨⟨text, tail'⟩, hname, hvalue⟩ := h
            rw [map_eq_ok] at hvalue
            obtain ⟨⟨value', tail''⟩, hvalue, heq⟩ := hvalue
            cases heq
            obtain ⟨name, hinput, rfl⟩ := exists_name_of_readName hname
            obtain ⟨tree, rfl, rfl⟩ := exists_tree_of_readValueWithin hvalue
            exact ⟨.bare name tree, by simp [hinput], rfl⟩

theorem exists_items_of_readItemsWithin {budget : Nat} {input rest : List Char}
    {items : List Value} (h : readItemsWithin budget input = .ok (items, rest)) :
    ∃ item others, input = itemsText (item :: others) ++ ']' :: rest ∧
      items = itemValues (item :: others) := by
  cases budget with
  | zero => simp [readItemsWithin] at h
  | succ budget =>
      rw [readItemsWithin, bind_eq_ok] at h
      obtain ⟨⟨value, tail⟩, hvalue, hnext⟩ := h
      obtain ⟨item, rfl, rfl⟩ := exists_tree_of_readValueWithin hvalue
      simp only at hnext
      split at hnext
      · rw [bind_eq_ok] at hnext
        obtain ⟨⟨more, rest'⟩, hmore, hpure⟩ := hnext
        cases hpure
        obtain ⟨next, others, rfl, rfl⟩ := exists_items_of_readItemsWithin hmore
        exact ⟨item, next :: others, by simp [itemsText_cons_append], rfl⟩
      · cases hnext
        exact ⟨item, [], by simp [itemsText_cons_append], rfl⟩
      · simp at hnext
      · simp at hnext

theorem exists_results_of_readEntriesWithin {budget : Nat} {closing : Closing}
    {entries entries' : Entries} {input rest : List Char}
    (h : readEntriesWithin budget closing entries input = .ok (entries', rest)) :
    ∃ result others, input = resultsText (result :: others) ++ (closing.text ++ rest) ∧
      (closing = .endOfText → rest = []) ∧
      entries' = entries.foldAll (namedValues (result :: others)) := by
  cases budget with
  | zero => simp [readEntriesWithin] at h
  | succ budget =>
      rw [readEntriesWithin, bind_eq_ok] at h
      obtain ⟨⟨text, tail⟩, hname, hvalue⟩ := h
      obtain ⟨name, rfl, rfl⟩ := exists_name_of_readName hname
      rw [bind_eq_ok] at hvalue
      obtain ⟨⟨value, tail⟩, hvalue, hnext⟩ := hvalue
      obtain ⟨value, rfl, rfl⟩ := exists_tree_of_readValueWithin hvalue
      simp only at hnext
      split at hnext
      · obtain ⟨next, others, rfl, hrest, rfl⟩ := exists_results_of_readEntriesWithin hnext
        exact ⟨(name, value), next :: others, by simp [resultsText_cons_append], hrest, rfl⟩
      · cases hnext
        exact ⟨(name, value), [], (resultsText_cons_append name value [] _).symm, by simp, rfl⟩
      · cases hnext
        exact ⟨(name, value), [], (resultsText_cons_append name value [] _).symm, by simp, rfl⟩
      · simp at hnext
      · simp at hnext
      · simp at hnext

end

/-! ## Whole texts -/

theorem readValue_eq_ok_iff {input : List Char} {value : Value} :
    readValue input = .ok value ↔ ∃ tree : Tree, tree.text = input ∧ tree.value = value := by
  unfold readValue
  rw [bind_eq_ok]
  constructor
  · rintro ⟨⟨value', rest⟩, hread, hrest⟩
    obtain ⟨tree, rfl, rfl⟩ := exists_tree_of_readValueWithin hread
    cases rest with
    | nil =>
        cases hrest
        exact ⟨tree, (List.append_nil _).symm, rfl⟩
    | cons c tail => simp at hrest
  · rintro ⟨tree, rfl, rfl⟩
    have hread := readValueWithin_text tree (2 * tree.text.length + 1) [] (by omega)
    rw [List.append_nil] at hread
    exact ⟨_, hread, rfl⟩

theorem readEntries_eq_ok_iff {input : List Char} {entries : Entries} :
    readEntries input = .ok entries ↔
      ∃ results, resultsText results = input ∧ Entries.collect (namedValues results) = entries := by
  cases input with
  | nil =>
      constructor
      · intro h
        cases h
        exact ⟨[], rfl, rfl⟩
      · rintro ⟨results, htext, rfl⟩
        cases resultsText_injective (htext.trans (by rfl : [] = resultsText []))
        rfl
  | cons c tail =>
      rw [readEntries, map_eq_ok]
      · constructor
        · rintro ⟨⟨entries', rest⟩, hread, rfl⟩
          obtain ⟨result, others, hinput, hrest, rfl⟩ := exists_results_of_readEntriesWithin hread
          exact ⟨result :: others, by simpa [hrest rfl, Closing.text] using hinput.symm, rfl⟩
        · rintro ⟨results, htext, rfl⟩
          cases results with
          | nil => simp [resultsText, resultTexts] at htext
          | cons result others =>
              have hread := readEntriesWithin_resultsText result others _ .endOfText [] []
                (fun _ => rfl) (Nat.le_refl _)
              simp only [Closing.text, List.append_nil] at hread
              rw [← htext]
              exact ⟨_, hread, rfl⟩
      · simp

/-- **Reading accepts exactly the grammar and answers its meaning**: a value is read from a text
if and only if a tree derives the text and stands for the value, entries are read if and only if
results with commas between them derive the text and fold into the entries, and no text has two
derivations. -/
theorem reading_follows_grammar :
    (∀ input value, readValue input = .ok value ↔
      ∃ tree : Tree, tree.text = input ∧ tree.value = value) ∧
    (∀ input entries, readEntries input = .ok entries ↔
      ∃ results, resultsText results = input ∧
        Entries.collect (namedValues results) = entries) ∧
    Function.Injective Tree.text ∧ Function.Injective resultsText :=
  ⟨fun _ _ => readValue_eq_ok_iff, fun _ _ => readEntries_eq_ok_iff, Tree.text_injective,
    resultsText_injective⟩

end Value

end DebugBridge
