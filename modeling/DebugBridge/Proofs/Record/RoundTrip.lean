import DebugBridge.Proofs.Value.Folding
import DebugBridge.Record
import DebugBridge.Value.Printer

/-!
# Records are read as they were printed

A result record or a record of the debugger's own accord is printed as one line: a character for its
kind, its class, and behind a comma its entries.  Reading that line, with blanks in front and line
ends behind, answers the record again.

## Strategy

* What can be printed so that it is read back is `Value.isLegible`: names that end where the equals
  sign begins, texts whose quotes are escaped, and each name once.
* The written form of a legible value is the text of a tree that stands for the value
  (`exists_tree_of_isLegible`), hence `readEntries` answers it (`readEntries_renderEntries`).
* `trimLine_print` and `splitHead?_append` take the line apart around the entries.

## Main statements

* `read_print`: the record, whatever its entries.
-/

namespace DebugBridge

namespace Value

open Grammar

/-! ## What can be read back -/

/-- Whether every quote, and a backslash at the end, has a backslash in front that escapes it. -/
def isEscaped : List Char → Bool
  | [] => true
  | ['\\'] => false
  | '\\' :: _ :: rest => isEscaped rest
  | '"' :: _ => false
  | _ :: rest => isEscaped rest

/-- Whether a text can be the name of an entry. -/
def isName (name : String) : Bool :=
  name.toList ≠ [] && name.toList.all (· ∉ delimiters)

mutual

/-- Whether a value can be read back: its texts are escaped, and its tuples have proper names, each
of them once. -/
def isLegible : Value → Bool
  | text content => isEscaped content.toList
  | list items => areLegible items
  | tuple entries => (entries.map Prod.fst).Nodup && haveLegible entries

/-- Whether each of the items can be read back. -/
def areLegible : List Value → Bool
  | [] => true
  | item :: rest => isLegible item && areLegible rest

/-- Whether each of the entries has a proper name and a value that can be read back. -/
def haveLegible : List (String × Value) → Bool
  | [] => true
  | (name, value) :: rest => isName name && isLegible value && haveLegible rest

end

/-- A text without quotes and backslashes needs no escapes. -/
theorem isEscaped_of_plain {content : List Char} (hquote : '"' ∉ content)
    (hbackslash : '\\' ∉ content) : isEscaped content = true := by
  induction content with
  | nil => rfl
  | cons c rest ih =>
      rw [List.mem_cons, not_or] at hquote hbackslash
      rw [isEscaped]
      · exact ih hquote.2 hbackslash.2
      · exact fun hc _ => hbackslash.1 hc.symm
      · exact fun _ _ hc _ => hbackslash.1 hc.symm
      · exact fun hc => hquote.1 hc.symm

theorem exists_body_of_isEscaped {content : List Char} (h : isEscaped content = true) :
    ∃ body, bodyText body = content := by
  induction content using isEscaped.induct with
  | case1 => exact ⟨[], rfl⟩
  | case2 => cases h
  | case3 escaped rest ih =>
      obtain ⟨body, hbody⟩ := ih (by rwa [isEscaped] at h)
      exact ⟨.escape escaped :: body, by rw [bodyText_cons, hbody]; rfl⟩
  | case4 => cases h
  | case5 c rest hlast hescape hquote ih =>
      rw [isEscaped] at h
      · obtain ⟨body, hbody⟩ := ih h
        have hbackslash : c ≠ '\\' := by
          intro hc
          cases rest with
          | nil => exact hlast hc rfl
          | cons escaped others => exact hescape escaped others hc rfl
        exact ⟨.plain c ⟨hquote, hbackslash⟩ :: body, by rw [bodyText_cons, hbody]; rfl⟩
      all_goals assumption

/-- A proper name as the grammar has it. -/
def nameOf (name : String) (h : isName name = true) : Name where
  text := name.toList
  nonempty := by simpa [isName] using (Bool.and_eq_true_iff.mp h).1
  free := by simpa [isName] using (Bool.and_eq_true_iff.mp h).2

mutual

theorem exists_tree_of_isLegible (value : Value) (h : value.isLegible = true) :
    ∃ tree : Tree, tree.text = value.render ∧ tree.value = value := by
  cases value with
  | text content =>
      obtain ⟨body, hbody⟩ := exists_body_of_isEscaped (by rwa [isLegible] at h)
      exact ⟨.quoted body, by rw [Tree.text_quoted, render, hbody],
        by rw [Tree.value, hbody, String.ofList_toList]⟩
  | list items =>
      obtain ⟨trees, htext, hvalues⟩ := exists_items_of_areLegible items (by rwa [isLegible] at h)
      exact ⟨.brackets trees, by rw [Tree.text_brackets, render, htext],
        by rw [Tree.value, hvalues]⟩
  | tuple entries =>
      rw [isLegible, Bool.and_eq_true, decide_eq_true_eq] at h
      obtain ⟨results, htext, hvalues⟩ := exists_results_of_haveLegible entries h.2
      exact ⟨.braces results, by rw [Tree.text_braces, render, htext],
        by rw [Tree.value, hvalues, Entries.collect_of_nodup h.1]⟩

theorem exists_items_of_areLegible (items : List Value) (h : areLegible items = true) :
    ∃ trees, itemsText trees = renderItems items ∧ itemValues trees = items := by
  cases items with
  | nil => exact ⟨[], rfl, rfl⟩
  | cons item rest =>
      rw [areLegible, Bool.and_eq_true] at h
      obtain ⟨tree, htext, hvalue⟩ := exists_tree_of_isLegible item h.1
      obtain ⟨trees, htexts, hvalues⟩ := exists_items_of_areLegible rest h.2
      refine ⟨tree :: trees, ?_, by rw [itemValues, hvalue, hvalues]⟩
      have happend := itemsText_cons_append tree trees []
      simp only [List.append_nil] at happend
      rw [happend, htext]
      cases rest with
      | nil => cases trees <;> simp_all [renderItems, itemValues]
      | cons next more => cases trees <;> simp_all [renderItems, itemValues]

theorem exists_results_of_haveLegible (entries : List (String × Value))
    (h : haveLegible entries = true) :
    ∃ results, resultsText results = renderEntries entries ∧ namedValues results = entries := by
  cases entries with
  | nil => exact ⟨[], rfl, rfl⟩
  | cons entry rest =>
      obtain ⟨name, value⟩ := entry
      rw [haveLegible, Bool.and_eq_true, Bool.and_eq_true] at h
      obtain ⟨tree, htext, hvalue⟩ := exists_tree_of_isLegible value h.1.2
      obtain ⟨results, htexts, hvalues⟩ := exists_results_of_haveLegible rest h.2
      refine ⟨(nameOf name h.1.1, tree) :: results, ?_, ?_⟩
      · have happend := resultsText_cons_append (nameOf name h.1.1) tree results []
        simp only [List.append_nil] at happend
        rw [happend, htext]
        cases rest with
        | nil => cases results <;> simp_all [renderEntries, namedValues, nameOf]
        | cons next more => cases results <;> simp_all [renderEntries, namedValues, nameOf]
      · rw [namedValues, hvalue, hvalues]
        simp [nameOf]

end

/-- Entries that are legible together are read as they were written. -/
theorem readEntries_renderEntries {entries : Entries} (h : (tuple entries).isLegible = true) :
    readEntries (renderEntries entries) = .ok entries := by
  rw [isLegible, Bool.and_eq_true, decide_eq_true_eq] at h
  obtain ⟨results, htext, hvalues⟩ := exists_results_of_haveLegible entries h.2
  exact readEntries_eq_ok_iff.mpr
    ⟨results, htext, by rw [hvalues, Entries.collect_of_nodup h.1]⟩

/-! ## Where written forms end -/

/-- A written value ends with a quote, a bracket or a brace. -/
theorem getLast?_render (value : Value) :
    ∃ c ∈ ['"', ']', '\x7d'], value.render.getLast? = some c := by
  cases value with
  | text content => exact ⟨'"', by simp, by rw [render, ← List.cons_append, List.getLast?_concat]⟩
  | list items => exact ⟨']', by simp, by rw [render, ← List.cons_append, List.getLast?_concat]⟩
  | tuple entries =>
      exact ⟨'\x7d', by simp, by rw [render, ← List.cons_append, List.getLast?_concat]⟩

theorem getLast?_renderEntries (entry : String × Value) (rest : Entries) :
    ∃ c ∈ ['"', ']', '\x7d'], (renderEntries (entry :: rest)).getLast? = some c := by
  induction rest generalizing entry with
  | nil =>
      obtain ⟨c, hc, hlast⟩ := getLast?_render entry.2
      exact ⟨c, hc, by simp [renderEntries, List.getLast?_append, List.getLast?_cons, hlast]⟩
  | cons next more ih =>
      obtain ⟨c, hc, hlast⟩ := ih next
      exact ⟨c, hc, by simp [renderEntries, List.getLast?_append, List.getLast?_cons, hlast]⟩

end Value

namespace Text

/-! ## Trimming -/

theorem dropTrailing_append {inClass : Char → Bool} (cs : List Char) {trail : List Char}
    (htrail : ∀ c ∈ trail, inClass c = true) :
    dropTrailing inClass (cs ++ trail) = dropTrailing inClass cs := by
  rw [dropTrailing, List.reverse_append, List.dropWhile_append_of_pos (by simpa using htrail),
    dropTrailing]

theorem dropTrailing_of_getLast? {inClass : Char → Bool} {cs : List Char} {last : Char}
    (hlast : cs.getLast? = some last) (hclass : inClass last = false) :
    dropTrailing inClass cs = cs := by
  obtain ⟨front, rfl⟩ := List.getLast?_eq_some_iff.mp hlast
  rw [dropTrailing, List.reverse_concat, List.dropWhile_cons_of_neg (by simp [hclass]),
    List.reverse_cons, List.reverse_reverse]

theorem dropTrailing_cons {inClass : Char → Bool} {c : Char} (hclass : inClass c = false)
    (cs : List Char) : dropTrailing inClass (c :: cs) = c :: dropTrailing inClass cs := by
  rw [dropTrailing, List.reverse_cons, List.dropWhile_append,
    List.dropWhile_cons_of_neg (by simp [hclass]), dropTrailing]
  split
  case isTrue hempty => rw [List.isEmpty_iff.mp hempty]; rfl
  case isFalse => rw [List.reverse_append]; rfl

end Text

namespace Record

/-! ## Printed records -/

/-- The name of a record of the debugger's own accord. -/
structure ClassName where
  first : Char
  others : List Char
  isAlpha_first : first.isAlpha = true
  all_others : others.all (fun c => c.isAlphanum || c == '_' || c == '-') = true

/-- The characters of the name. -/
def ClassName.text (name : ClassName) : List Char :=
  name.first :: name.others

/-- What a printed record begins with. -/
inductive Head
  /-- the class of a result record -/
  | result (status : Status) (printed : status ≠ .timeout)
  /-- a change of execution -/
  | exec (name : ClassName)
  /-- a notice -/
  | notify (name : ClassName)

namespace Head

/-- The character of the kind. -/
def sigil : Head → Char
  | result .. => '^'
  | exec _ => '*'
  | notify _ => '='

/-- The class. -/
def word : Head → List Char
  | result status _ => status.keyword.toList
  | exec name | notify name => name.text

/-- The line of a record: the entries, if it has any to print, stand behind a comma. -/
def print (head : Head) (payload : Option Value.Entries) : List Char :=
  head.sigil :: (head.word ++
    (payload.map fun entries => ',' :: Value.renderEntries entries).getD [])

/-- The record that a line stands for: a result without entries has none, a record of the
debugger's own accord has no entries then. -/
def record (head : Head) (line : List Char) (payload : Option Value.Entries) : Record :=
  match head with
  | result status _ => .result ⟨status, String.ofList line, payload.map .tuple⟩
  | exec name => .exec ⟨String.ofList name.text, .tuple (payload.getD [])⟩
  | notify name => .notify ⟨String.ofList name.text, .tuple (payload.getD [])⟩

end Head

theorem isLetter_eq_isAlpha (c : Char) : isLetter c = c.isAlpha := by
  have hupper : c.isUpper = ('A' ≤ c && c ≤ 'Z') := Bool.decide_and _ _
  have hlower : c.isLower = ('a' ≤ c && c ≤ 'z') := rfl
  show isLetter c = (c.isUpper || c.isLower)
  rw [isLetter, hupper, hlower]

theorem inClass_eq (c : Char) : inClass c = (c.isAlphanum || c == '_' || c == '-') := by
  rw [inClass, isLetter_eq_isAlpha]
  rfl

theorem ofClass?_keyword {status : Status} (printed : status ≠ .timeout) :
    Status.ofClass? status.keyword = some status := by
  cases status <;> first | rfl | exact absurd rfl printed

namespace Head

theorem head?_word (head : Head) : (head.word.head?.map isLetter).getD false = true := by
  cases head with
  | result status printed => cases status <;> rfl
  | exec name | notify name =>
      simpa [word, ClassName.text, isLetter_eq_isAlpha] using name.isAlpha_first

theorem inClass_of_mem_text (name : ClassName) {c : Char} (hc : c ∈ name.text) :
    inClass c = true := by
  rw [inClass_eq]
  rcases List.mem_cons.mp hc with rfl | hc
  · rw [Char.isAlphanum, name.isAlpha_first]
    rfl
  · exact List.all_eq_true.mp name.all_others c hc

theorem all_inClass_keyword (status : Status) : status.keyword.toList.all inClass = true := by
  cases status <;> rfl

theorem inClass_of_mem_word (head : Head) (c : Char) (hc : c ∈ head.word) : inClass c = true := by
  cases head with
  | result status printed => exact List.all_eq_true.mp (all_inClass_keyword status) c hc
  | exec name | notify name => exact inClass_of_mem_text name hc

end Head

/-! ## Reading a printed record -/

/-- The class ends where a character follows that is no part of a class. -/
theorem Head.span_word (head : Head) (rest : List Char)
    (hrest : ∀ c ∈ rest.head?, inClass c = false) :
    (head.word ++ rest).takeWhile inClass = head.word ∧
      (head.word ++ rest).dropWhile inClass = rest := by
  rw [List.takeWhile_append_of_pos head.inClass_of_mem_word,
    List.dropWhile_append_of_pos head.inClass_of_mem_word]
  cases rest with
  | nil => simp
  | cons c rest => simp [hrest c rfl]

theorem splitHead?_word (head : Head) : splitHead? head.word = some (head.word, none) := by
  obtain ⟨htake, hdrop⟩ := head.span_word [] nofun
  rw [List.append_nil] at htake hdrop
  simp only [splitHead?, htake, hdrop, head.head?_word, Bool.not_true, Bool.false_eq_true, if_false]

/-- The class ends at the comma in front of the entries. -/
theorem splitHead?_append (head : Head) {body : List Char} (hline : '\n' ∉ body) :
    splitHead? (head.word ++ ',' :: body) = some (head.word, some body) := by
  obtain ⟨htake, hdrop⟩ := head.span_word (',' :: body) (by rintro _ ⟨⟩; rfl)
  simp only [splitHead?, htake, hdrop, head.head?_word, Bool.not_true, Bool.false_eq_true, if_false,
    List.contains_iff_mem, hline]

/-- The class and the entries of a record. -/
theorem readHead_print (head : Head) (line : List Char) {payload : Option Value.Entries}
    (hlegible : ∀ entries ∈ payload, (Value.tuple entries).isLegible = true)
    (hline : ∀ entries ∈ payload, '\n' ∉ Value.renderEntries entries) :
    readHead line (head.word ++
        (payload.map fun entries => ',' :: Value.renderEntries entries).getD []) =
      .ok (String.ofList head.word, payload.map .tuple) := by
  cases payload with
  | none => simp [readHead, splitHead?_word]
  | some entries =>
      simp [readHead, splitHead?_append head (hline entries rfl),
        Value.readEntries_renderEntries (hlegible entries rfl)]

theorem isLineEnd_of_inClass {c : Char} (h : inClass c = true) : Text.isLineEnd c = false := by
  rw [Text.isLineEnd, Bool.or_eq_false_iff, beq_eq_false_iff_ne, beq_eq_false_iff_ne]
  constructor <;> (rintro rfl; cases h)

/-- A printed record ends with its class, a comma, or the last character of its entries. -/
theorem getLast?_print (head : Head) (payload : Option Value.Entries) :
    ∃ last, (head.print payload).getLast? = some last ∧ Text.isLineEnd last = false := by
  have hclosing : ∀ c ∈ ['"', ']', '\x7d'], Text.isLineEnd c = false := by simp [Text.isLineEnd]
  match payload with
  | none =>
      have hsigil : Text.isLineEnd head.sigil = false := by cases head <;> rfl
      have hne : head.print none ≠ [] := by simp [Head.print]
      refine ⟨(head.print none).getLast hne, List.getLast?_eq_some_getLast hne, ?_⟩
      rcases List.mem_cons.mp (List.getLast_mem hne) with hlast | hlast
      · rwa [hlast]
      · exact isLineEnd_of_inClass (head.inClass_of_mem_word _ (by simpa using hlast))
  | some [] => exact ⟨',', by simp [Head.print, Value.renderEntries, List.getLast?_cons], rfl⟩
  | some (entry :: rest) =>
      obtain ⟨last, hmem, hlast⟩ := Value.getLast?_renderEntries entry rest
      exact ⟨last, by simp [Head.print, List.getLast?_cons, hlast], hclosing last hmem⟩

theorem Head.isBlank_sigil (head : Head) : Text.isBlank head.sigil = false := by
  cases head <;> rfl

theorem trimLine_print (head : Head) (payload : Option Value.Entries) {lead trail : List Char}
    (hlead : ∀ c ∈ lead, Text.isBlank c = true) (htrail : ∀ c ∈ trail, Text.isLineEnd c = true) :
    trimLine (lead ++ head.print payload ++ trail) = head.print payload := by
  obtain ⟨last, hlast, hend⟩ := getLast?_print head payload
  rw [trimLine, List.append_assoc, List.dropWhile_append_of_pos hlead, Head.print, List.cons_append,
    List.dropWhile_cons_of_neg (by simp [head.isBlank_sigil]), ← List.cons_append, ← Head.print,
    Text.dropTrailing_append _ htrail, Text.dropTrailing_of_getLast? hlast hend]

/-- Neither a blank line nor a prompt begins with another character. -/
theorem isIdle_cons {c : Char} (hblank : Text.isBlank c = false) (hprompt : c ≠ '(')
    (text : List Char) : isIdle (c :: text) = false := by
  rw [isIdle, Text.dropTrailing_cons hblank]
  simp [hprompt]

theorem isIdle_print (head : Head) (payload : Option Value.Entries) :
    isIdle (head.print payload) = false := by
  have hprompt : head.sigil ≠ '(' := by cases head <;> simp [Head.sigil]
  exact isIdle_cons head.isBlank_sigil hprompt _

/-- **A printed record is read as it was.**  Its kind, its class and its entries come back, whatever
white space stands in front of the line and whatever line ends behind it. -/
theorem read_print (head : Head) (payload : Option Value.Entries) (lead trail : List Char)
    (hlegible : ∀ entries ∈ payload, (Value.tuple entries).isLegible = true)
    (hline : ∀ entries ∈ payload, '\n' ∉ Value.renderEntries entries)
    (hlead : ∀ c ∈ lead, Text.isBlank c = true) (htrail : ∀ c ∈ trail, Text.isLineEnd c = true) :
    read (String.ofList (lead ++ head.print payload ++ trail)) =
      .ok (some (head.record (head.print payload) payload)) := by
  have hhead := readHead_print head (head.print payload) hlegible hline
  simp only [read, String.toList_ofList, trimLine_print head payload hlead htrail, isIdle_print,
    Bool.false_eq_true, if_false]
  rw [Head.print] at hhead ⊢
  cases head with
  | result status printed =>
      simp only [readTrimmed, Head.sigil, readResult] at hhead ⊢
      rw [hhead]
      simp [Head.word, ofClass?_keyword printed, Head.record, Except.map, bind, Except.bind, pure,
        Except.pure]
  | exec name | notify name =>
      simp only [readTrimmed, Head.sigil, readAsync] at hhead ⊢
      rw [hhead]
      cases payload <;>
        simp [Head.word, Head.record, Except.map, bind, Except.bind, pure, Except.pure,
          Value.emptyTuple]

/-- A notice with a list and an escaped quote in a nested tuple. -/
theorem read_print_of_notice :
    read "\t =breakpoint-modified,bkpt=\x7bids=[\"1\",\"2\"],what=\"say \\\"a,b\\\"\"\x7d\r\n" =
      .ok (some (.notify ⟨"breakpoint-modified",
        .tuple [("bkpt", .tuple [("ids", .list [.text "1", .text "2"]),
          ("what", .text "say \\\"a,b\\\"")])]⟩)) :=
  read_print
    (.notify ⟨'b', "reakpoint-modified".toList, rfl, rfl⟩)
    (some [("bkpt", .tuple [("ids", .list [.text "1", .text "2"]),
      ("what", .text "say \\\"a,b\\\"")])])
    ['\t', ' '] ['\r', '\n']
    (by rintro _ ⟨⟩; rfl)
    (by rintro _ ⟨⟩; simp [Value.renderEntries, Value.render, Value.renderItems])
    (by simp [Text.isBlank]) (by simp [Text.isLineEnd])

end Record

end DebugBridge
