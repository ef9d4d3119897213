import DebugBridge.Json.Tree
import DebugBridge.Proofs.Text.Decimal
import Mathlib.Tactic.IntervalCases

/-!
# JSON is read as it was written

The text of a JSON value is read back as the value, unless its arrays and objects are nested deeper
than the reader goes.  This is for values whose numbers are integers of 64 bits.  Where the numbers
are whole, of any size, the text is read by the grammar, whatever the value of the tree is then.

## Strategy

* `Json.tree` is the tree that the text of a value spells.  It is read whatever comes behind the
  text (`readTreeWithin_write`), unless that goes on with a number.
* The tree has the value it was made from, if there are as many levels as the value has
  (`value?_tree`).

## Main statements

* `treeRead?_render`: a text is read as the tree of what it was written for.
* `read?_render`: a text all of which has to have a value.
* `read?_render_object`: the text of an object of which only the fields of a structure matter.
-/

namespace DebugBridge.Json

/-! ## Texts in quotes -/

theorem readUnits?_letter {letter c : Char} (h : letterEscape? letter = some c)
    (rest : List Char) :
    readUnits? ('\\' :: letter :: rest) =
      (readUnits? rest).map fun read => (.char c :: read.1, read.2) := by
  have hunicode : letter ≠ 'u' := by
    rintro rfl
    cases h
  rw [readUnits?, h]
  · cases readUnits? rest <;> rfl
  · rintro _ _ _ _ _ hletter _
    exact hunicode hletter

theorem readUnits?_plain {c : Char} (hcontrol : ¬ c.toNat < 0x20) (hquote : c ≠ '"')
    (hbackslash : c ≠ '\\') (rest : List Char) :
    readUnits? (c :: rest) =
      (readUnits? rest).map fun read => (.char c :: read.1, read.2) := by
  rw [readUnits?]
  · have hallowed : (decide (c.toNat < 0x20) || c == '\\') = false := by
      simp [hcontrol, hbackslash]
    rw [hallowed]
    cases readUnits? rest <;> rfl
  · exact hquote
  · exact fun _ _ _ _ _ hc _ => hbackslash hc
  · exact fun _ _ hc _ => hbackslash hc

theorem hexQuad?_control {n : Nat} (hn : n < 0x20) :
    hexQuad? '0' '0' (hexDigit (n / 16)) (hexDigit (n % 16)) = some n := by
  interval_cases n <;> rfl

theorem readUnits?_code {a b c d : Char} {code : Nat} (h : hexQuad? a b c d = some code)
    (rest : List Char) :
    readUnits? ('\\' :: 'u' :: a :: b :: c :: d :: rest) =
      (readUnits? rest).map fun read => (.ofCode code :: read.1, read.2) := by
  rw [readUnits?, h]
  cases readUnits? rest <;> rfl

/-- An escaped character is read as the character, whatever comes behind it. -/
theorem readUnits?_escapeChar (c : Char) (rest : List Char) :
    readUnits? (escapeChar c ++ rest) =
      (readUnits? rest).map fun read => (.char c :: read.1, read.2) := by
  unfold escapeChar
  split
  case h_8 hquote hbackslash _ _ _ _ _ =>
    split
    · next hcontrol =>
      have hcode : Unit16.ofCode c.toNat = .char c := by
        have hhigh : ¬ 0xD800 ≤ c.toNat := by omega
        have hlow : ¬ 0xDC00 ≤ c.toNat := by omega
        simp [Unit16.ofCode, hhigh, hlow]
      have hread := readUnits?_code (hexQuad?_control hcontrol) rest
      rw [hcode] at hread
      exact hread
    · next hcontrol => exact readUnits?_plain hcontrol hquote hbackslash rest
  all_goals exact readUnits?_letter rfl rest

theorem readUnits?_quoted (text rest : List Char) :
    readUnits? (text.flatMap escapeChar ++ '"' :: rest) = some (text.map .char, rest) := by
  induction text with
  | nil => rw [List.flatMap_nil, List.nil_append, readUnits?, List.map_nil]
  | cons c others ih =>
      rw [List.flatMap_cons, List.append_assoc, readUnits?_escapeChar, ih, List.map_cons]
      rfl

theorem text?_map_char (text : List Char) : Unit16.text? (text.map .char) = some text := by
  induction text with
  | nil => rfl
  | cons c others ih => rw [List.map_cons, Unit16.text?, ih, Option.map_some]

theorem readString?_quote (text : String) (rest : List Char) :
    readString? (text.toList.flatMap escapeChar ++ '"' :: rest) = some (some text, rest) := by
  rw [readString?, readUnits?_quoted]
  show some ((Unit16.text? _).map String.ofList, rest) = _
  rw [text?_map_char, Option.map_some, String.ofList_toList]

/-! ## Numbers -/

/-- What can come behind a value: nothing, or a character that ends it. -/
def Ends (rest : List Char) : Prop :=
  ∀ c ∈ rest.head?, c ∈ [',', ']', '\x7d']

theorem ends_cons {c : Char} (hc : c ∈ [',', ']', '\x7d']) (rest : List Char) :
    Ends (c :: rest) := by
  rintro _ ⟨⟩
  exact hc

/-- What ends a value is neither space nor part of a number. -/
theorem Ends.of_head? {rest : List Char} (h : Ends rest) {c : Char} (hc : c ∈ rest.head?) :
    isSpace c = false ∧ c.isDigit = false ∧ c ≠ '.' ∧ (c == 'e' || c == 'E') = false := by
  have hmem := h c hc
  simp only [List.mem_cons, List.not_mem_nil, or_false] at hmem
  rcases hmem with rfl | rfl | rfl <;> decide

theorem Ends.skipSpace_eq {rest : List Char} (h : Ends rest) : skipSpace rest = rest := by
  cases rest with
  | nil => rfl
  | cons c tail =>
      obtain ⟨hspace, -⟩ := h.of_head? rfl
      rw [skipSpace, List.dropWhile_cons_of_neg (by simp [hspace])]

theorem readDigits?_append {digits rest : List Char} (hne : digits ≠ [])
    (hdigits : ∀ c ∈ digits, c.isDigit = true) (hrest : ∀ c ∈ rest.head?, c.isDigit = false) :
    readDigits? (digits ++ rest) = some (digits, rest) := by
  have htake : (digits ++ rest).takeWhile Char.isDigit = digits := by
    rw [List.takeWhile_append_of_pos hdigits]
    cases rest with
    | nil => simp
    | cons c tail => simp [hrest c rfl]
  have hdrop : (digits ++ rest).dropWhile Char.isDigit = rest := by
    rw [List.dropWhile_append_of_pos hdigits]
    cases rest with
    | nil => rfl
    | cons c tail => simp [hrest c rfl]
  unfold readDigits?
  rw [htake, hdrop]
  cases digits with
  | nil => exact absurd rfl hne
  | cons c others => rfl

theorem readNumber?_toDigits (negative : Bool) (n : Nat) {rest : List Char} (hrest : Ends rest) :
    readNumber? negative (Nat.toDigits 10 n ++ rest) =
      some (.number ⟨negative, Nat.toDigits 10 n, none, none⟩, rest) := by
  have hdigits : readDigits? (Nat.toDigits 10 n ++ rest) = some (Nat.toDigits 10 n, rest) :=
    readDigits?_append Nat.toDigits_ne_nil (fun c => Text.isDigit_of_mem_toDigits)
      fun c hc => (hrest.of_head? hc).2.1
  -- a zero in front would have to stand alone
  have hzero : ((Nat.toDigits 10 n).length > 1 && (Nat.toDigits 10 n).head? == some '0') =
      false := by
    by_cases hn : 0 < n
    · simp [Text.head?_toDigits_ne hn]
    · obtain rfl : n = 0 := by omega
      rfl
  have hfraction : readFraction? rest = some (none, rest) := by
    unfold readFraction?
    split
    · exact absurd rfl (hrest.of_head? rfl).2.2.1
    · rfl
  have hexponent : readExponent? rest = some (none, rest) := by
    unfold readExponent?
    split
    · next e tail => rw [(hrest.of_head? rfl).2.2.2, if_neg Bool.false_ne_true]
    · rfl
  simp only [readNumber?, hdigits, Option.bind_eq_bind, Option.bind_some, hzero, hfraction,
    hexponent, Bool.false_eq_true, if_false]
  rfl

/-! ## Trees -/

mutual

/-- How deep arrays and objects are nested in a value. -/
def nesting : Json → Nat
  | null | bool _ | number _ | string _ => 0
  | array items => nestingOfItems items + 1
  | object entries => nestingOfEntries entries + 1

/-- How deep arrays and objects are nested in any of the items. -/
def nestingOfItems : List Json → Nat
  | [] => 0
  | item :: rest => max (nesting item) (nestingOfItems rest)

/-- How deep arrays and objects are nested in the value of any of the entries. -/
def nestingOfEntries : List (String × Json) → Nat
  | [] => 0
  | (_, value) :: rest => max (nesting value) (nestingOfEntries rest)

end

mutual

/-- Whether all numbers in a value are of a kind. -/
def allNumbers (kind : Number → Bool) : Json → Bool
  | null | bool _ | string _ => true
  | number n => kind n
  | array items => allNumbersOfItems kind items
  | object entries => allNumbersOfEntries kind entries

/-- Whether all numbers in the items are of a kind. -/
def allNumbersOfItems (kind : Number → Bool) : List Json → Bool
  | [] => true
  | item :: rest => allNumbers kind item && allNumbersOfItems kind rest

/-- Whether all numbers in the values of the entries are of a kind. -/
def allNumbersOfEntries (kind : Number → Bool) : List (String × Json) → Bool
  | [] => true
  | (_, value) :: rest => allNumbers kind value && allNumbersOfEntries kind rest

end

theorem allNumbersOfItems_iff {kind : Number → Bool} {items : List Json} :
    allNumbersOfItems kind items = true ↔ ∀ item ∈ items, item.allNumbers kind = true := by
  induction items with
  | nil => simp [allNumbersOfItems]
  | cons item rest ih => rw [allNumbersOfItems, Bool.and_eq_true, ih, List.forall_mem_cons]

theorem allNumbersOfEntries_iff {kind : Number → Bool} {entries : List (String × Json)} :
    allNumbersOfEntries kind entries = true ↔ ∀ entry ∈ entries, entry.2.allNumbers kind = true := by
  induction entries with
  | nil => simp [allNumbersOfEntries]
  | cons entry rest ih => rw [allNumbersOfEntries, Bool.and_eq_true, ih, List.forall_mem_cons]

/-- Whether a number is an integer, of any size. -/
def Number.isWhole : Number → Bool
  | nat _ | neg _ => true
  | double _ => false

/-- Whether a number is an integer of 64 bits. -/
def Number.isPlain : Number → Bool
  | nat n => n < Nat.pow 2 64
  | neg n => 0 < n && n ≤ Nat.pow 2 63
  | double _ => false

/-- Whether the numbers in a value are integers. -/
abbrev isWhole : Json → Bool :=
  allNumbers Number.isWhole

/-- Whether the numbers in a value are integers of 64 bits. -/
abbrev isPlain : Json → Bool :=
  allNumbers Number.isPlain

mutual

theorem allNumbers_mono {kind other : Number → Bool} (hkind : ∀ n, kind n = true → other n = true)
    (json : Json) (h : json.allNumbers kind = true) : json.allNumbers other = true := by
  cases json with
  | null | bool | string => rfl
  | number n => exact hkind n h
  | array items => exact allNumbersOfItems_mono hkind items h
  | object entries => exact allNumbersOfEntries_mono hkind entries h

theorem allNumbersOfItems_mono {kind other : Number → Bool}
    (hkind : ∀ n, kind n = true → other n = true) (items : List Json)
    (h : allNumbersOfItems kind items = true) : allNumbersOfItems other items = true := by
  cases items with
  | nil => rfl
  | cons item rest =>
      rw [allNumbersOfItems, Bool.and_eq_true] at h ⊢
      exact ⟨allNumbers_mono hkind item h.1, allNumbersOfItems_mono hkind rest h.2⟩

theorem allNumbersOfEntries_mono {kind other : Number → Bool}
    (hkind : ∀ n, kind n = true → other n = true) (entries : List (String × Json))
    (h : allNumbersOfEntries kind entries = true) : allNumbersOfEntries other entries = true := by
  cases entries with
  | nil => rfl
  | cons entry rest =>
      rw [allNumbersOfEntries, Bool.and_eq_true] at h ⊢
      exact ⟨allNumbers_mono hkind entry.2 h.1, allNumbersOfEntries_mono hkind rest h.2⟩

end

theorem isWhole_of_isPlain {json : Json} (h : json.isPlain = true) : json.isWhole = true :=
  allNumbers_mono (fun n hn => by cases n <;> first | rfl | cases hn) json h

/-- What an integer spells. -/
def Number.numeral : Number → Numeral
  | neg n => ⟨true, Nat.toDigits 10 n, none, none⟩
  | n => ⟨false, n.render.toList, none, none⟩

mutual

/-- The tree that the text of a value with integers spells. -/
def tree : Json → Tree
  | null => .null
  | bool b => .bool b
  | number n => .number n.numeral
  | string s => .string (some s)
  | array items => .array (itemTrees items)
  | object entries => .object (entryTrees entries)

/-- The trees that the texts of the items spell. -/
def itemTrees : List Json → List Tree
  | [] => []
  | item :: rest => tree item :: itemTrees rest

/-- The names of the entries with the trees that the texts of their values spell. -/
def entryTrees : List (String × Json) → List (Option String × Tree)
  | [] => []
  | (name, value) :: rest => (some name, tree value) :: entryTrees rest

end

theorem toList_render_nat (n : Nat) : (Number.nat n).render.toList = Nat.toDigits 10 n :=
  Text.toList_toString n

theorem toList_render_neg (n : Nat) : (Number.neg n).render.toList = '-' :: Nat.toDigits 10 n := by
  rw [Number.render, String.toList_append, Text.toList_toString]
  rfl

theorem numeral_nat (n : Nat) :
    (Number.nat n).numeral = ⟨false, Nat.toDigits 10 n, none, none⟩ := by
  rw [← toList_render_nat, Number.numeral]
  exact nofun

/-- A natural number begins with a digit. -/
theorem exists_toDigits_eq_cons (n : Nat) :
    ∃ digit others, Nat.toDigits 10 n = digit :: others ∧ digit.isDigit = true := by
  cases hdigits : Nat.toDigits 10 n with
  | nil => exact absurd hdigits Nat.toDigits_ne_nil
  | cons digit others =>
      exact ⟨digit, others, rfl, Text.isDigit_of_mem_toDigits (hdigits ▸ List.mem_cons_self)⟩

/-- The text of a value with integers begins neither with space nor with a closing bracket. -/
theorem write_eq_cons {json : Json} (hwhole : json.isWhole = true) :
    ∃ c rest, json.write = c :: rest ∧ isSpace c = false ∧ c ≠ ']' := by
  cases json with
  | null => exact ⟨_, _, rfl, rfl, by decide⟩
  | bool b => cases b <;> exact ⟨_, _, rfl, rfl, by decide⟩
  | string s => exact ⟨_, _, rfl, rfl, by decide⟩
  | array items => exact ⟨_, _, by rw [write], rfl, by decide⟩
  | object entries => exact ⟨_, _, by rw [write], rfl, by decide⟩
  | number n =>
      cases n with
      | double bits => cases hwhole
      | neg n => exact ⟨'-', _, by rw [write, toList_render_neg], rfl, by decide⟩
      | nat n =>
          obtain ⟨digit, others, hdigits, hdigit⟩ := exists_toDigits_eq_cons n
          refine ⟨digit, others, by rw [write, toList_render_nat, hdigits], ?_, ?_⟩
          · rw [isSpace]
            simp only [Bool.or_eq_false_iff, beq_eq_false_iff_ne]
            refine ⟨⟨⟨?_, ?_⟩, ?_⟩, ?_⟩ <;> (rintro rfl; cases hdigit)
          · rintro rfl
            cases hdigit

/-! ## Steps of the reader -/

theorem readTreeWithin_digits (budget : Nat) {digit : Char} (hdigit : digit.isDigit = true)
    (rest : List Char) :
    readTreeWithin (budget + 1) (digit :: rest) = readNumber? false (digit :: rest) := by
  rw [readTreeWithin]
  -- no other kind of value begins with a digit
  all_goals
    intro _ heq
    obtain ⟨rfl, -⟩ := List.cons.inj heq
    cases hdigit

theorem readTreeWithin_minus (budget : Nat) (rest : List Char) :
    readTreeWithin (budget + 1) ('-' :: rest) = readNumber? true rest := by
  rw [readTreeWithin]

theorem readTreeWithin_quote (budget : Nat) (rest : List Char) :
    readTreeWithin (budget + 1) ('"' :: rest) =
      (readString? rest).map fun read => (.string read.1, read.2) := by
  rw [readTreeWithin]

theorem readTreeWithin_bracket (budget : Nat) {c : Char} (hspace : isSpace c = false)
    (hclosing : c ≠ ']') (rest : List Char) :
    readTreeWithin (budget + 1) ('[' :: c :: rest) =
      (readItemsWithin budget (c :: rest)).map fun read => (.array read.1, read.2) := by
  have hskip : skipSpace (c :: rest) = c :: rest := List.dropWhile_cons_of_neg (by simp [hspace])
  rw [readTreeWithin, hskip]
  split
  · next heq => exact absurd (List.cons.inj heq).1 hclosing
  · rfl

theorem readTreeWithin_brace (budget : Nat) (rest : List Char) :
    readTreeWithin (budget + 1) ('\x7b' :: '"' :: rest) =
      (readEntriesWithin budget ('"' :: rest)).map fun read => (.object read.1, read.2) := by
  rw [readTreeWithin]
  rfl

theorem skipSpace_write {json : Json} (hwhole : json.isWhole = true) (rest : List Char) :
    skipSpace (json.write ++ rest) = json.write ++ rest := by
  obtain ⟨c, tail, hwrite, hspace, -⟩ := write_eq_cons hwhole
  rw [hwrite, List.cons_append, skipSpace, List.dropWhile_cons_of_neg (by simp [hspace])]

theorem writeItems_cons_append (item : Json) (others : List Json) (rest : List Char) :
    writeItems (item :: others) ++ rest = item.write ++
      match others with
      | [] => rest
      | _ :: _ => ',' :: (writeItems others ++ rest) := by
  cases others <;> simp [writeItems]

theorem writeEntries_cons_append (name : String) (value : Json) (others : List (String × Json))
    (rest : List Char) :
    writeEntries ((name, value) :: others) ++ rest =
      '"' :: (name.toList.flatMap escapeChar ++ '"' :: ':' :: (value.write ++
        match others with
        | [] => rest
        | _ :: _ => ',' :: (writeEntries others ++ rest))) := by
  cases others <;> simp [writeEntries, quote]

theorem length_write_pos {json : Json} (hwhole : json.isWhole = true) : 0 < json.write.length := by
  obtain ⟨c, rest, hwrite, -⟩ := write_eq_cons hwhole
  simp [hwrite]

mutual

/-- The text of a value with integers is read as its tree, whatever comes behind it. -/
theorem readTreeWithin_write (json : Json) (hwhole : json.isWhole = true) (budget : Nat)
    {rest : List Char} (hrest : Ends rest) (hbudget : 2 * json.write.length ≤ budget) :
    readTreeWithin budget (json.write ++ rest) = some (json.tree, rest) := by
  have hlength := length_write_pos hwhole
  cases budget with
  | zero => omega
  | succ budget =>
      cases json with
      | null => rw [write]; rfl
      | bool b => cases b <;> (rw [write]; rfl)
      | string s =>
          rw [write, quote, List.cons_append, List.append_assoc, List.singleton_append,
            readTreeWithin_quote, readString?_quote]
          rfl
      | number n =>
          cases n with
          | double bits => cases hwhole
          | neg n =>
              rw [write, toList_render_neg, List.cons_append, readTreeWithin_minus]
              exact readNumber?_toDigits true n hrest
          | nat n =>
              have hread := readNumber?_toDigits false n hrest
              rw [write, toList_render_nat, tree, numeral_nat]
              obtain ⟨digit, others, hdigits, hdigit⟩ := exists_toDigits_eq_cons n
              rw [hdigits] at hread ⊢
              rw [List.cons_append, readTreeWithin_digits budget hdigit]
              exact hread
      | array items =>
          cases items with
          | nil => rw [write]; rfl
          | cons item others =>
              have hitems : allNumbersOfItems Number.isWhole (item :: others) = true := hwhole
              have hitem : item.isWhole = true := by
                rw [allNumbersOfItems, Bool.and_eq_true] at hitems
                exact hitems.1
              obtain ⟨c, tail, hwrite, hspace, hclosing⟩ := write_eq_cons hitem
              have hread := readItemsWithin_writeItems item others hitems budget rest
                (by simp [write] at hbudget; omega)
              rw [write, List.cons_append, List.append_assoc, List.singleton_append]
              rw [writeItems_cons_append, hwrite, List.cons_append] at hread ⊢
              rw [readTreeWithin_bracket budget hspace hclosing, hread, tree]
              rfl
      | object entries =>
          cases entries with
          | nil => rw [write]; rfl
          | cons entry others =>
              obtain ⟨name, value⟩ := entry
              have hread := readEntriesWithin_writeEntries name value others
                hwhole budget rest (by simp [write] at hbudget; omega)
              rw [write, List.cons_append, List.append_assoc, List.singleton_append]
              rw [writeEntries_cons_append] at hread ⊢
              rw [readTreeWithin_brace budget, hread, tree]
              rfl
termination_by budget

theorem readItemsWithin_writeItems (item : Json) (others : List Json)
    (hwhole : allNumbersOfItems Number.isWhole (item :: others) = true) (budget : Nat)
    (rest : List Char)
    (hbudget : 2 * (writeItems (item :: others)).length + 1 ≤ budget) :
    readItemsWithin budget (writeItems (item :: others) ++ ']' :: rest) =
      some (itemTrees (item :: others), rest) := by
  rw [allNumbersOfItems, Bool.and_eq_true] at hwhole
  have hlength := congrArg List.length (writeItems_cons_append item others [])
  cases budget with
  | zero => omega
  | succ budget =>
      rw [writeItems_cons_append, readItemsWithin]
      cases others with
      | nil =>
          have hends := ends_cons (c := ']') (by simp) rest
          have hread := readTreeWithin_write item hwhole.1 budget hends (by simp at hlength; omega)
          simp only [hread, Option.bind_eq_bind, Option.bind_some, hends.skipSpace_eq]
          rfl
      | cons next more =>
          have hends := ends_cons (c := ',') (by simp) (writeItems (next :: more) ++ ']' :: rest)
          have hread := readTreeWithin_write item hwhole.1 budget hends (by simp at hlength; omega)
          have hnext := readItemsWithin_writeItems next more hwhole.2 budget rest
            (by simp at hlength; omega)
          have hskip : skipSpace (writeItems (next :: more) ++ ']' :: rest) =
              writeItems (next :: more) ++ ']' :: rest := by
            have hmore := hwhole.2
            rw [allNumbersOfItems, Bool.and_eq_true] at hmore
            rw [writeItems_cons_append, skipSpace_write hmore.1]
          simp only [hread, Option.bind_eq_bind, Option.bind_some, hends.skipSpace_eq, hskip, hnext]
          rfl
termination_by budget

theorem readEntriesWithin_writeEntries (name : String) (value : Json)
    (others : List (String × Json))
    (hwhole : allNumbersOfEntries Number.isWhole ((name, value) :: others) = true)
    (budget : Nat) (rest : List Char)
    (hbudget : 2 * (writeEntries ((name, value) :: others)).length + 1 ≤ budget) :
    readEntriesWithin budget (writeEntries ((name, value) :: others) ++ '\x7d' :: rest) =
      some (entryTrees ((name, value) :: others), rest) := by
  rw [allNumbersOfEntries, Bool.and_eq_true] at hwhole
  have hlength := congrArg List.length (writeEntries_cons_append name value others [])
  have hcolon (behind : List Char) : skipSpace (':' :: behind) = ':' :: behind := rfl
  cases budget with
  | zero => omega
  | succ budget =>
      rw [writeEntries_cons_append, readEntriesWithin]
      cases others with
      | nil =>
          have hends := ends_cons (c := '\x7d') (by simp) rest
          have hread := readTreeWithin_write value hwhole.1 budget hends (by simp at hlength; omega)
          simp only [readString?_quote, Option.bind_eq_bind, Option.bind_some, hcolon,
            skipSpace_write hwhole.1, hread, hends.skipSpace_eq]
          rfl
      | cons next more =>
          obtain ⟨name', value'⟩ := next
          have hends := ends_cons (c := ',') (by simp)
            (writeEntries ((name', value') :: more) ++ '\x7d' :: rest)
          have hread := readTreeWithin_write value hwhole.1 budget hends (by simp at hlength; omega)
          have hnext := readEntriesWithin_writeEntries name' value' more hwhole.2 budget rest
            (by simp at hlength; omega)
          have hskip : skipSpace (writeEntries ((name', value') :: more) ++ '\x7d' :: rest) =
              writeEntries ((name', value') :: more) ++ '\x7d' :: rest := by
            rw [writeEntries_cons_append]
            rfl
          simp only [readString?_quote, Option.bind_eq_bind, Option.bind_some, hcolon,
            skipSpace_write hwhole.1, hread, hends.skipSpace_eq, hskip, hnext]
          rfl
termination_by budget

end

theorem treeRead?_render {json : Json} (hwhole : json.isWhole = true) :
    Tree.read? json.render = some json.tree := by
  have hskip := skipSpace_write hwhole []
  have hends : Ends [] := nofun
  have hread := readTreeWithin_write json hwhole (2 * json.write.length + 1) hends (by omega)
  rw [List.append_nil] at hskip hread
  simp only [Tree.read?, render, String.toList_ofList, hskip, hread, Option.bind_eq_bind,
    Option.bind_some]
  rfl

/-! ## Values -/

theorem value?_numeral {n : Number} (hplain : n.isPlain = true) : n.numeral.value? = some n := by
  cases n with
  | double bits => cases hplain
  | nat n =>
      have hbound : n < Nat.pow 2 64 := of_decide_eq_true hplain
      simp [numeral_nat, Numeral.value?, Text.ofDigits_toDigits, hbound]
  | neg n =>
      have hbounds : 0 < n ∧ n ≤ Nat.pow 2 63 := by simpa [Number.isPlain] using hplain
      simp [Number.numeral, Numeral.value?, Text.ofDigits_toDigits, hbounds]

mutual

/-- The tree of a plain value has that value, if the levels suffice. -/
theorem value?_tree (json : Json) (hplain : json.isPlain = true) (depth : Nat) :
    json.tree.value? depth = if json.nesting ≤ depth then some json else none := by
  cases json with
  | null | bool | string => rw [tree, Tree.value?, nesting]; rfl
  | number n =>
      rw [tree, Tree.value?, value?_numeral hplain, nesting]
      rfl
  | array items =>
      have hitems := values?_itemTrees items hplain
      rw [tree, nesting]
      cases depth with
      | zero => simp [Tree.value?]
      | succ depth =>
          simp only [Tree.value?, hitems, Nat.add_le_add_iff_right]
          split <;> rfl
  | object entries =>
      have hentries := entryValues?_entryTrees entries hplain
      rw [tree, nesting]
      cases depth with
      | zero => simp [Tree.value?]
      | succ depth =>
          simp only [Tree.value?, hentries, Nat.add_le_add_iff_right]
          split <;> rfl

theorem values?_itemTrees (items : List Json)
    (hplain : allNumbersOfItems Number.isPlain items = true) (depth : Nat) :
    Tree.values? depth (itemTrees items) =
      if nestingOfItems items ≤ depth then some items else none := by
  cases items with
  | nil => simp [itemTrees, Tree.values?, nestingOfItems]
  | cons item rest =>
      rw [allNumbersOfItems, Bool.and_eq_true] at hplain
      simp only [itemTrees, Tree.values?, nestingOfItems, value?_tree item hplain.1,
        values?_itemTrees rest hplain.2, Nat.max_le]
      by_cases hitem : item.nesting ≤ depth <;> by_cases hrest : nestingOfItems rest ≤ depth <;>
        simp [hitem, hrest]

theorem entryValues?_entryTrees (entries : List (String × Json))
    (hplain : allNumbersOfEntries Number.isPlain entries = true) (depth : Nat) :
    Tree.entryValues? depth (entryTrees entries) =
      if nestingOfEntries entries ≤ depth then some entries else none := by
  cases entries with
  | nil => simp [entryTrees, Tree.entryValues?, nestingOfEntries]
  | cons entry rest =>
      obtain ⟨name, value⟩ := entry
      rw [allNumbersOfEntries, Bool.and_eq_true] at hplain
      simp only [entryTrees, Tree.entryValues?, nestingOfEntries, value?_tree value hplain.1,
        entryValues?_entryTrees rest hplain.2, Nat.max_le]
      by_cases hvalue : value.nesting ≤ depth <;>
        by_cases hrest : nestingOfEntries rest ≤ depth <;> simp [hvalue, hrest]

end

/-- **The text of a plain value is read as the value**, unless it is nested too deep. -/
theorem read?_render {json : Json} (hplain : json.isPlain = true) :
    read? Reading.whole json.render =
      if json.nesting ≤ depthLimit then some json else none := by
  rw [read?, treeRead?_render (isWhole_of_isPlain hplain), Option.bind_some]
  exact value?_tree json hplain depthLimit

/-! ## Records -/

/-- Whether the name of an entry is that of a field. -/
def isField (fields : List (String × Reading)) (entry : String × Json) : Bool :=
  (fields.find? (·.1 == entry.1)).isSome

/-- What there is of the fields among the entries is read like the whole. -/
def ReadsWhole (fields : List (String × Reading)) (entries : List (String × Json)) : Prop :=
  ∀ entry ∈ entries, ∀ field ∈ fields.find? (·.1 == entry.1), ∀ depth,
    field.2 depth entry.2.tree = entry.2.tree.value? depth

theorem readsWhole_of_whole {fields : List (String × Reading)}
    (hwhole : ∀ field ∈ fields, field.2 = Reading.whole) (entries : List (String × Json)) :
    ReadsWhole fields entries := by
  intro entry _ field hfound depth
  rw [hwhole field (List.mem_of_find?_eq_some hfound)]
  rfl

/-- Of an object, the entries with the names of fields are kept. -/
theorem kept_entryTrees {fields : List (String × Reading)} {entries : List (String × Json)}
    (hreads : ReadsWhole fields entries) (depth : Nat) :
    ((entryTrees entries).filterMap fun (name, value) =>
      match name with
      | none => some none
      | some name => (fields.find? (·.1 == name)).map fun field =>
          (field.2 depth value).map fun json => (name, json)).mapM id =
      Tree.entryValues? depth (entryTrees (entries.filter (isField fields))) := by
  induction entries with
  | nil => rfl
  | cons entry rest ih =>
      obtain ⟨name, value⟩ := entry
      have hrest := ih fun entry hentry => hreads entry (List.mem_cons_of_mem _ hentry)
      have hfirst := hreads (name, value) List.mem_cons_self
      cases hfound : fields.find? (·.1 == name) with
      | none =>
          have hdropped : isField fields (name, value) = false := by simp [isField, hfound]
          simp only [entryTrees, List.filterMap_cons, hfound, Option.map_none]
          rw [List.filter_cons_of_neg (by simp [hdropped])]
          exact hrest
      | some field =>
          have hkept : isField fields (name, value) = true := by simp [isField, hfound]
          rw [List.filter_cons_of_pos hkept]
          simp only [entryTrees, List.filterMap_cons, hfound, Option.map_some,
            hfirst field hfound depth, List.mapM_cons, hrest, Tree.entryValues?]
          cases value.tree.value? depth <;> rfl

theorem record_tree {fields : List (String × Reading)} {entries : List (String × Json)}
    (hreads : ReadsWhole fields entries) (depth : Nat) :
    Reading.record fields depth (object entries).tree =
      (object (entries.filter (isField fields))).tree.value? depth := by
  rw [tree, tree]
  cases depth with
  | zero => rfl
  | succ depth =>
      rw [Reading.record, Tree.value?]
      exact congrArg (Option.map object) (kept_entryTrees hreads depth)

/-- The text of an object is read like that of its fields, which are all that has to have a
value. -/
theorem read?_render_object {fields : List (String × Reading)} {entries kept : List (String × Json)}
    (hwhole : (object entries).isWhole = true) (hreads : ReadsWhole fields entries)
    (hkept : entries.filter (isField fields) = kept) (hplain : (object kept).isPlain = true) :
    read? (Reading.record fields) (object entries).render =
      if (object kept).nesting ≤ depthLimit then some (object kept) else none := by
  rw [read?, treeRead?_render hwhole, Option.bind_some, record_tree hreads, hkept]
  exact value?_tree _ hplain depthLimit

end DebugBridge.Json
