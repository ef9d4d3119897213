import DebugBridge.Proofs.Value.Reading

/-!
# Where reading stops

When a text breaks the grammar, reading stops at the end of its longest viable beginning: the
longest one that can still be completed to a text of the grammar.

## Strategy

A `Form` says what can be taken from the front of a text.  `Halts` says of the place where a reader
stops that what lies before it can be completed to something of the form, and that with one
character more it cannot, whatever comes behind.  Both carry over from a part of a form to the whole
(`Halts.under`), so each of the readers needs only the ways in which it stops by itself.  The
induction over the three readers together is the one of `exists_tree_of_readValueWithin`.

## Main statements

* `halts_of_readValueWithin`: where the readers stop.
* `halts_of_readValue`, `halts_of_readEntries`: the same for whole texts.
* `Halts.longestViable`: that this is where their longest viable beginning ends.
-/

namespace DebugBridge.Value

open Grammar

/-! ## Places to stop -/

/-- What can be taken from the front of a text, and what is left of the text then. -/
abbrev Form := List Char → List Char → Prop

/-- Whether reading stops because the text is at its end. -/
def Cause.isPremature : Cause → Bool
  | equalsExpectedAtEnd | valueExpectedAtEnd | unterminatedText | unterminatedTuple
  | unterminatedList => true
  | nameExpected | equalsExpected | separatorExpected | tupleSeparatorExpected
  | listSeparatorExpected | trailingInput => false

/-- Reading a form stops behind `head`. -/
structure Halts (form : Form) (input : List Char) (stop : Stop) (head : List Char) : Prop where
  split : input = head ++ stop.unread
  /-- what was read can be completed -/
  viable : ∃ more, form (head ++ more) []
  /-- with the next character, nothing can be taken from the front any more -/
  barred : ∀ c others, stop.unread = c :: others → ∀ more taken left, form taken left →
    taken ++ left ≠ head ++ c :: more
  premature : stop.cause.isPremature = true → stop.unread = []

/-- At the end of a text it is enough that the text can be completed. -/
theorem Halts.of_end {form : Form} {input : List Char} {cause : Cause}
    (hviable : ∃ more, form (input ++ more) []) : Halts form input ⟨cause, []⟩ input where
  split := by simp
  viable := hviable
  barred := nofun
  premature _ := rfl

/-- Before a character it matters what the character bars. -/
theorem Halts.of_char {form : Form} {head others : List Char} {c : Char} {cause : Cause}
    (hviable : ∃ more, form (head ++ more) [])
    (hbarred : ∀ more taken left, form taken left → taken ++ left ≠ head ++ c :: more)
    (hcause : cause.isPremature = false) :
    Halts form (head ++ c :: others) ⟨cause, c :: others⟩ head where
  split := rfl
  viable := hviable
  barred d more heq := by
    cases heq
    exact hbarred
  premature hpremature := by simp [hcause] at hpremature

/-- Where a part of a form stops, the whole stops: the part can be planted behind what was read
before it, and whatever is of the whole form and begins in this way has the part there. -/
theorem Halts.under {form whole : Form} {input head : List Char} {stop : Stop}
    (h : Halts form input stop head) (front : List Char)
    (hplant : ∀ taken, form taken [] → ∃ more, whole (front ++ taken ++ more) [])
    (hstrip : ∀ taken left tail, whole taken left → taken ++ left = front ++ tail →
      tail.head? = input.head? → ∃ inner others, form inner others ∧ inner ++ others = tail) :
    Halts whole (front ++ input) stop (front ++ head) where
  split := by rw [h.split, List.append_assoc]
  viable := by
    obtain ⟨more, hmore⟩ := h.viable
    obtain ⟨last, hlast⟩ := hplant _ hmore
    exact ⟨more ++ last, by simpa using hlast⟩
  barred c others hunread more taken left hwhole heq := by
    rw [List.append_assoc] at heq
    have hfirst : (head ++ c :: more).head? = input.head? := by
      rw [h.split, hunread]
      cases head <;> rfl
    obtain ⟨inner, rest, hform, hinner⟩ := hstrip taken left _ hwhole heq hfirst
    exact h.barred c others hunread more inner rest hform hinner
  premature := h.premature

/-! ## Forms -/

/-- A text behind its opening quote. -/
def bodyForm : Form := fun taken _ => ∃ body, taken = bodyText body ++ ['"']

/-- A name with the equals sign behind it. -/
def nameForm : Form := fun taken _ => ∃ name : Name, taken = name.text ++ ['=']

def valueForm : Form := fun taken _ => ∃ tree : Tree, taken = tree.text

/-- Items up to the bracket behind the last. -/
def itemsForm : Form := fun taken _ =>
  ∃ item others, taken = itemsText (item :: others) ++ [']']

/-- Results up to the closing behind the last. -/
def entriesForm (closing : Closing) : Form := fun taken left =>
  (∃ result others, taken = resultsText (result :: others) ++ closing.text) ∧
    (closing = .endOfText → left = [])

/-- A name to complete a text with. -/
def someName : Name :=
  ⟨['x'], by simp, by simp [delimiters]⟩

/-- A value to complete a text with. -/
def someTree : Tree :=
  .quoted []

section Parts

variable {taken left tail : List Char}

/-- Behind an item comes the closing bracket, or a comma and further items. -/
theorem after_item {item : Tree} (h : itemsForm taken left)
    (heq : taken ++ left = item.text ++ tail) :
    tail = ']' :: left ∨ ∃ inner, itemsForm inner left ∧ tail = ',' :: (inner ++ left) := by
  obtain ⟨first, others, rfl⟩ := h
  rw [List.append_assoc, itemsText_cons_append] at heq
  obtain ⟨rfl, htail⟩ := Tree.text_append_inj first item heq
  cases others with
  | nil => exact .inl htail.symm
  | cons next more => exact .inr ⟨_, ⟨next, more, rfl⟩, by simpa using htail.symm⟩

/-- Behind a result comes the closing, or a comma and further results. -/
theorem after_result {closing : Closing} {name : Name} {value : Tree}
    (h : entriesForm closing taken left)
    (heq : taken ++ left = name.text ++ '=' :: (value.text ++ tail)) :
    (tail = closing.text ++ left ∧ (closing = .endOfText → left = [])) ∨
      ∃ inner, entriesForm closing inner left ∧ tail = ',' :: (inner ++ left) := by
  obtain ⟨⟨⟨name', value'⟩, others, rfl⟩, hleft⟩ := h
  rw [List.append_assoc, resultsText_cons_append] at heq
  obtain ⟨rfl, hvalue⟩ := Name.text_append_inj heq
  obtain ⟨rfl, htail⟩ := Tree.text_append_inj value' value hvalue
  cases others with
  | nil => exact .inl ⟨htail.symm, hleft⟩
  | cons next more => exact .inr ⟨_, ⟨⟨next, more, rfl⟩, hleft⟩, by simpa using htail.symm⟩

/-- Items begin with a value. -/
theorem exists_value_of_items (h : itemsForm taken left) :
    ∃ inner others, valueForm inner others ∧ inner ++ others = taken ++ left := by
  obtain ⟨item, others, rfl⟩ := h
  rw [List.append_assoc, itemsText_cons_append]
  exact ⟨_, _, ⟨item, rfl⟩, rfl⟩

/-- Entries begin with a name. -/
theorem exists_name_of_entries {closing : Closing} (h : entriesForm closing taken left) :
    ∃ inner others, nameForm inner others ∧ inner ++ others = taken ++ left := by
  obtain ⟨⟨⟨name, value⟩, others, rfl⟩, -⟩ := h
  rw [List.append_assoc, resultsText_cons_append]
  exact ⟨_, _, ⟨name, rfl⟩, by rw [List.append_assoc, List.singleton_append]⟩

end Parts

/-! ## Quoted texts and names -/

theorem halts_of_readText {input : List Char} {stop : Stop} (h : readText input = .error stop) :
    Halts bodyForm input stop input := by
  have hends : stop = ⟨.unterminatedText, []⟩ ∧ ∃ more, bodyForm (input ++ more) [] := by
    induction input using readText.induct with
    | case1 =>
        cases h
        exact ⟨rfl, ['"'], [], rfl⟩
    | case2 tail => simp [readText] at h
    -- a backslash at the end waits for the character that it escapes
    | case3 =>
        cases h
        exact ⟨rfl, ['x', '"'], [.escape 'x'], rfl⟩
    | case4 escaped tail ih =>
        rw [readText, bind_eq_error] at h
        rcases h with htail | ⟨read, -, hread⟩
        · obtain ⟨hstop, more, body, hbody⟩ := ih htail
          exact ⟨hstop, more, .escape escaped :: body, by simp [Piece.text, hbody]⟩
        · cases hread
    | case5 c tail hquote hlast hescape ih =>
        rw [readText.eq_5 c tail hquote hlast hescape, bind_eq_error] at h
        rcases h with htail | ⟨read, -, hread⟩
        · obtain ⟨hstop, more, body, hbody⟩ := ih htail
          have hbackslash : c ≠ '\\' := by
            intro hc
            cases tail with
            | nil => exact hlast hc rfl
            | cons escaped others => exact hescape escaped others hc rfl
          exact ⟨hstop, more, .plain c ⟨hquote, hbackslash⟩ :: body, by simp [Piece.text, hbody]⟩
        · cases hread
  obtain ⟨rfl, hviable⟩ := hends
  exact .of_end hviable

/-- A name that is not followed by the equals sign could be. -/
theorem halts_of_readName {input : List Char} {stop : Stop} (h : readName input = .error stop) :
    ∃ head, Halts nameForm input stop head := by
  have hinput := List.takeWhile_append_dropWhile (p := fun c => !endsName c) (l := input)
  have hfree : ∀ d ∈ input.takeWhile (fun c => !endsName c), d ∉ delimiters :=
    fun d => free_of_mem_takeWhile
  have hends : ∀ c others, input.dropWhile (fun c => !endsName c) = c :: others →
      c ∈ delimiters := by
    intro c others hdrop
    have hnot := List.head?_dropWhile_not (fun c => !endsName c) input
    rw [hdrop] at hnot
    exact endsName_iff.mp (by simpa using hnot)
  unfold readName at h
  generalize input.takeWhile (fun c => !endsName c) = name at h hinput hfree
  generalize input.dropWhile (fun c => !endsName c) = rest at h hinput hends
  subst hinput
  -- whatever ends the name, no other name goes on with it
  have hbarred (c : Char) (others : List Char) (hrest : rest = c :: others)
      (hname : name = [] ∨ c ≠ '=') (more taken left : List Char) (hform : nameForm taken left) :
      taken ++ left ≠ name ++ c :: more := by
    obtain ⟨other, rfl⟩ := hform
    intro heq
    rw [List.append_assoc, List.singleton_append] at heq
    obtain ⟨htext, rfl, -⟩ := Name.text_append_eq hfree (hends c others hrest) heq
    rcases hname with rfl | hne
    · exact other.nonempty htext
    · exact hne rfl
  cases name with
  | nil =>
      cases h
      refine ⟨[], rfl, ⟨_, someName, rfl⟩, ?_, nofun⟩
      exact fun c others hrest => hbarred c others hrest (.inl rfl)
  | cons d tail =>
      have hviable : ∃ more, nameForm (d :: tail ++ more) [] :=
        ⟨['='], ⟨d :: tail, by simp, hfree⟩, rfl⟩
      cases rest with
      | nil =>
          cases h
          rw [List.append_nil]
          exact ⟨_, .of_end hviable⟩
      | cons c others =>
          obtain ⟨rfl, hequals⟩ : stop = ⟨.equalsExpected, c :: others⟩ ∧ c ≠ '=' := by
            split at h <;> simp_all
          exact ⟨_, .of_char hviable (hbarred c others rfl (.inr hequals)) rfl⟩

/-! ## From parts to wholes -/

section Carry

variable {input head : List Char} {stop : Stop}

theorem Halts.quoted (h : Halts bodyForm input stop head) :
    Halts valueForm ('"' :: input) stop ('"' :: head) := by
  refine h.under ['"'] ?_ ?_
  · rintro _ ⟨body, rfl⟩
    exact ⟨[], .quoted body, by simp⟩
  · rintro _ left tail ⟨tree, rfl⟩ heq -
    cases tree with
    | quoted body => exact ⟨_, left, ⟨body, rfl⟩, by simpa using heq⟩
    | braces | brackets => simp at heq
    | bare name value =>
        rw [Tree.text_bare, List.append_assoc] at heq
        exact absurd heq (name.text_append_ne (by simp [delimiters]))

theorem Halts.braced (h : Halts (entriesForm .brace) input stop head)
    (hinput : input.head? ≠ some '\x7d') :
    Halts valueForm ('\x7b' :: input) stop ('\x7b' :: head) := by
  refine h.under ['\x7b'] ?_ ?_
  · rintro _ ⟨⟨result, others, rfl⟩, -⟩
    exact ⟨[], .braces (result :: others), by simp [Closing.text]⟩
  · rintro _ left tail ⟨tree, rfl⟩ heq hfirst
    cases tree with
    | braces results =>
        cases results with
        | nil =>
            have htail : '\x7d' :: left = tail := by simpa [resultsText, resultTexts] using heq
            rw [← htail] at hfirst
            exact absurd hfirst.symm hinput
        | cons result others =>
            exact ⟨_, left, ⟨⟨result, others, rfl⟩, nofun⟩, by simpa [Closing.text] using heq⟩
    | quoted | brackets => simp at heq
    | bare name value =>
        rw [Tree.text_bare, List.append_assoc] at heq
        exact absurd heq (name.text_append_ne (by simp [delimiters]))

theorem Halts.bracketed (h : Halts itemsForm input stop head) (hinput : input.head? ≠ some ']') :
    Halts valueForm ('[' :: input) stop ('[' :: head) := by
  refine h.under ['['] ?_ ?_
  · rintro _ ⟨item, others, rfl⟩
    exact ⟨[], .brackets (item :: others), by simp⟩
  · rintro _ left tail ⟨tree, rfl⟩ heq hfirst
    cases tree with
    | brackets items =>
        cases items with
        | nil =>
            have htail : ']' :: left = tail := by simpa [itemsText, itemTexts] using heq
            rw [← htail] at hfirst
            exact absurd hfirst.symm hinput
        | cons item others => exact ⟨_, left, ⟨item, others, rfl⟩, by simpa using heq⟩
    | quoted | braces => simp at heq
    | bare name value =>
        rw [Tree.text_bare, List.append_assoc] at heq
        exact absurd heq (name.text_append_ne (by simp [delimiters]))

/-- A value that begins with none of the other signs begins with a name. -/
theorem Halts.named {c : Char} (h : Halts nameForm (c :: input) stop head) (hquote : c ≠ '"')
    (hbrace : c ≠ '\x7b') (hbracket : c ≠ '[') : Halts valueForm (c :: input) stop head := by
  refine h.under [] ?_ ?_
  · rintro _ ⟨name, rfl⟩
    exact ⟨someTree.text, .bare name someTree, by simp⟩
  · rintro _ left tail ⟨tree, rfl⟩ rfl hfirst
    cases tree with
    | quoted => exact absurd (by simpa using hfirst.symm) hquote
    | braces => exact absurd (by simpa using hfirst.symm) hbrace
    | brackets => exact absurd (by simpa using hfirst.symm) hbracket
    | bare name value => exact ⟨_, value.text ++ left, ⟨name, rfl⟩, by simp⟩

theorem Halts.behind_name (h : Halts valueForm input stop head) (name : Name) :
    Halts valueForm (name.text ++ '=' :: input) stop (name.text ++ '=' :: head) := by
  rw [List.append_cons _ _ input, List.append_cons _ _ head]
  refine h.under _ ?_ ?_
  · rintro _ ⟨value, rfl⟩
    exact ⟨[], .bare name value, by simp⟩
  · rintro _ left tail ⟨tree, rfl⟩ heq -
    rw [List.append_assoc, List.singleton_append] at heq
    cases tree with
    | bare other value =>
        rw [Tree.text_bare, List.append_assoc, List.cons_append] at heq
        obtain ⟨rfl, htail⟩ := Name.text_append_inj heq
        exact ⟨_, left, ⟨value, rfl⟩, htail⟩
    | quoted | braces | brackets =>
        refine absurd heq.symm (name.text_append_ne ?_)
        simp [delimiters]

theorem Halts.first_item (h : Halts valueForm input stop head) :
    Halts itemsForm input stop head := by
  refine h.under [] ?_ ?_
  · rintro _ ⟨item, rfl⟩
    exact ⟨[']'], item, [], by simp [itemsText, itemTexts]⟩
  · rintro taken left tail hitems rfl -
    exact exists_value_of_items hitems

theorem Halts.behind_item (h : Halts itemsForm input stop head) (item : Tree) :
    Halts itemsForm (item.text ++ ',' :: input) stop (item.text ++ ',' :: head) := by
  rw [List.append_cons _ _ input, List.append_cons _ _ head]
  refine h.under _ ?_ ?_
  · rintro _ ⟨next, others, rfl⟩
    exact ⟨[], item, next :: others, by simp [itemsText, itemTexts]⟩
  · rintro taken left tail hitems heq -
    rw [List.append_assoc, List.singleton_append] at heq
    rcases after_item hitems heq with hclosed | ⟨inner, hinner, htail⟩
    · cases hclosed
    · exact ⟨inner, left, hinner, (List.cons.inj htail).2.symm⟩

variable {closing : Closing}

theorem Halts.first_name (h : Halts nameForm input stop head) :
    Halts (entriesForm closing) input stop head := by
  refine h.under [] ?_ ?_
  · rintro _ ⟨name, rfl⟩
    exact ⟨someTree.text ++ closing.text, ⟨(name, someTree), [],
      by simp [resultsText, resultTexts]⟩, fun _ => rfl⟩
  · rintro taken left tail hentries rfl -
    exact exists_name_of_entries hentries

theorem Halts.first_value (h : Halts valueForm input stop head) (name : Name) :
    Halts (entriesForm closing) (name.text ++ '=' :: input) stop (name.text ++ '=' :: head) := by
  rw [List.append_cons _ _ input, List.append_cons _ _ head]
  refine h.under _ ?_ ?_
  · rintro _ ⟨value, rfl⟩
    exact ⟨closing.text, ⟨(name, value), [], by simp [resultsText, resultTexts]⟩, fun _ => rfl⟩
  · rintro _ left tail ⟨⟨⟨other, value⟩, others, rfl⟩, -⟩ heq -
    rw [List.append_assoc, List.append_assoc, List.singleton_append, resultsText_cons_append] at heq
    obtain ⟨rfl, htail⟩ := Name.text_append_inj heq
    exact ⟨_, _, ⟨value, rfl⟩, htail⟩

theorem Halts.behind_result (h : Halts (entriesForm closing) input stop head) (name : Name)
    (value : Tree) :
    Halts (entriesForm closing) (name.text ++ '=' :: (value.text ++ ',' :: input)) stop
      (name.text ++ '=' :: (value.text ++ ',' :: head)) := by
  have hfront (text : List Char) : name.text ++ '=' :: (value.text ++ ',' :: text) =
      (name.text ++ '=' :: (value.text ++ [','])) ++ text := by simp
  rw [hfront input, hfront head]
  refine h.under _ ?_ ?_
  · rintro _ ⟨⟨next, others, rfl⟩, -⟩
    exact ⟨[], ⟨(name, value), next :: others, by simp [resultsText, resultTexts]⟩, fun _ => rfl⟩
  · rintro taken left tail hentries heq -
    rw [← hfront] at heq
    rcases after_result hentries heq with ⟨htail, hleft⟩ | ⟨inner, hinner, htail⟩
    · cases closing with
      | brace => cases htail
      | endOfText =>
          rw [hleft rfl] at htail
          cases htail
    · exact ⟨inner, left, hinner, (List.cons.inj htail).2.symm⟩

end Carry

/-! ## The readers -/

section Base

variable {tail : List Char} {cause : Cause}

/-- Behind an item that neither a comma nor a bracket follows. -/
theorem halts_after_item {item : Tree} (hcomma : ∀ rest, tail ≠ ',' :: rest)
    (hclosed : ∀ rest, tail ≠ ']' :: rest) (hend : tail ≠ [])
    (hcause : cause.isPremature = false) :
    Halts itemsForm (item.text ++ tail) ⟨cause, tail⟩ item.text := by
  cases tail with
  | nil => exact absurd rfl hend
  | cons c others =>
      refine .of_char ⟨[']'], item, [], by simp [itemsText, itemTexts]⟩ ?_ hcause
      intro more taken left hform heq
      rcases after_item hform heq with htail | ⟨inner, -, htail⟩
      · obtain rfl := (List.cons.inj htail).1
        exact hclosed _ rfl
      · obtain rfl := (List.cons.inj htail).1
        exact hcomma _ rfl

/-- Behind a result that neither a comma nor the closing follows. -/
theorem halts_after_result {closing : Closing} {name : Name} {value : Tree}
    (hcomma : ∀ rest, tail ≠ ',' :: rest)
    (hclosed : closing = .brace → ∀ rest, tail ≠ '\x7d' :: rest) (hend : tail ≠ [])
    (hcause : cause.isPremature = false) :
    Halts (entriesForm closing) (name.text ++ '=' :: (value.text ++ tail)) ⟨cause, tail⟩
      (name.text ++ '=' :: value.text) := by
  cases tail with
  | nil => exact absurd rfl hend
  | cons c others =>
      have hsplit : name.text ++ '=' :: (value.text ++ c :: others) =
          (name.text ++ '=' :: value.text) ++ c :: others := by simp
      rw [hsplit]
      refine .of_char ⟨closing.text, ⟨(name, value), [], ?_⟩, fun _ => rfl⟩ ?_ hcause
      · simp [resultsText, resultTexts]
      intro more taken left hform heq
      rw [List.append_assoc, List.cons_append] at heq
      rcases after_result hform heq with ⟨htail, hleft⟩ | ⟨inner, -, htail⟩
      · cases closing with
        | brace =>
            obtain rfl := (List.cons.inj htail).1
            exact hclosed rfl _ rfl
        | endOfText =>
            rw [hleft rfl] at htail
            cases htail
      · obtain rfl := (List.cons.inj htail).1
        exact hcomma _ rfl

end Base

mutual

/-- Where the reader of a value stops. -/
theorem halts_of_readValueWithin {budget : Nat} {input : List Char} {stop : Stop}
    (h : readValueWithin budget input = .error stop) (hbudget : 2 * input.length ≤ budget) :
    ∃ head, Halts valueForm input stop head := by
  cases input with
  | nil =>
      have hviable : ∃ more, valueForm ([] ++ more) [] := ⟨someTree.text, someTree, rfl⟩
      cases budget <;> cases h <;> exact ⟨[], .of_end hviable⟩
  | cons c tail =>
      rw [List.length_cons] at hbudget
      cases budget with
      | zero => omega
      | succ budget =>
          by_cases hquote : c = '"'
          · subst hquote
            rw [readValueWithin_quote, map_eq_error] at h
            exact ⟨_, (halts_of_readText h).quoted⟩
          by_cases hbrace : c = '\x7b'
          · subst hbrace
            by_cases hclosed : tail.head? = some '\x7d'
            · obtain ⟨tail', rfl⟩ := List.head?_eq_some_iff.mp hclosed
              cases h
            · rw [readValueWithin_brace budget hclosed, map_eq_error] at h
              obtain ⟨head, hhead⟩ := halts_of_readEntriesWithin h (by omega)
              exact ⟨_, hhead.braced hclosed⟩
          by_cases hbracket : c = '['
          · subst hbracket
            by_cases hclosed : tail.head? = some ']'
            · obtain ⟨tail', rfl⟩ := List.head?_eq_some_iff.mp hclosed
              cases h
            · rw [readValueWithin_bracket budget hclosed, map_eq_error] at h
              obtain ⟨head, hhead⟩ := halts_of_readItemsWithin h (by omega)
              exact ⟨_, hhead.bracketed hclosed⟩
          · rw [readValueWithin_bare budget tail hquote hbrace hbracket, bind_eq_error] at h
            rcases h with hname | ⟨⟨text, rest⟩, hname, hvalue⟩
            · obtain ⟨head, hhead⟩ := halts_of_readName hname
              exact ⟨_, hhead.named hquote hbrace hbracket⟩
            · have hvalue : readValueWithin budget rest = .error stop := map_eq_error.mp hvalue
              obtain ⟨name, hinput, -⟩ := exists_name_of_readName hname
              have hlength := congrArg List.length hinput
              simp only [List.length_cons, List.length_append] at hlength
              obtain ⟨head, hhead⟩ := halts_of_readValueWithin hvalue (by omega)
              rw [hinput]
              exact ⟨_, hhead.behind_name name⟩

/-- Where the reader of items stops. -/
theorem halts_of_readItemsWithin {budget : Nat} {input : List Char} {stop : Stop}
    (h : readItemsWithin budget input = .error stop) (hbudget : 2 * input.length + 1 ≤ budget) :
    ∃ head, Halts itemsForm input stop head := by
  cases budget with
  | zero => omega
  | succ budget =>
      rw [readItemsWithin, bind_eq_error] at h
      rcases h with hitem | ⟨⟨value, tail⟩, hitem, hnext⟩
      · obtain ⟨head, hhead⟩ := halts_of_readValueWithin hitem (by omega)
        exact ⟨head, hhead.first_item⟩
      · obtain ⟨item, rfl, -⟩ := exists_tree_of_readValueWithin hitem
        have hpos := item.length_text_pos
        rw [List.length_append] at hbudget
        simp only at hnext
        split at hnext
        · next rest =>
            rw [bind_eq_error] at hnext
            rcases hnext with hmore | ⟨more, -, hpure⟩
            · rw [List.length_cons] at hbudget
              obtain ⟨head, hhead⟩ := halts_of_readItemsWithin hmore (by omega)
              exact ⟨_, hhead.behind_item item⟩
            · cases hpure
        · cases hnext
        · cases hnext
          rw [List.append_nil]
          exact ⟨_, .of_end ⟨[']'], item, [], by simp [itemsText, itemTexts]⟩⟩
        · next hcomma hclosed hend =>
            cases hnext
            exact ⟨_, halts_after_item hcomma hclosed hend rfl⟩

/-- Where the reader of entries stops. -/
theorem halts_of_readEntriesWithin {budget : Nat} {closing : Closing} {entries : Entries}
    {input : List Char} {stop : Stop}
    (h : readEntriesWithin budget closing entries input = .error stop)
    (hbudget : 2 * input.length + 1 ≤ budget) :
    ∃ head, Halts (entriesForm closing) input stop head := by
  cases budget with
  | zero => omega
  | succ budget =>
      rw [readEntriesWithin, bind_eq_error] at h
      rcases h with hname | ⟨⟨text, tail⟩, hname, hvalue⟩
      · obtain ⟨head, hhead⟩ := halts_of_readName hname
        exact ⟨head, hhead.first_name⟩
      · obtain ⟨name, rfl, -⟩ := exists_name_of_readName hname
        rw [List.length_append, List.length_cons] at hbudget
        rw [bind_eq_error] at hvalue
        rcases hvalue with hvalue | ⟨⟨value, tail⟩, hvalue, hnext⟩
        · obtain ⟨head, hhead⟩ := halts_of_readValueWithin hvalue (by omega)
          exact ⟨_, hhead.first_value name⟩
        · obtain ⟨value, rfl, -⟩ := exists_tree_of_readValueWithin hvalue
          rw [List.length_append] at hbudget
          simp only at hnext
          split at hnext
          · rw [List.length_cons] at hbudget
            obtain ⟨head, hhead⟩ := halts_of_readEntriesWithin hnext (by omega)
            exact ⟨_, hhead.behind_result name value⟩
          · cases hnext
          · cases hnext
          · cases hnext
            rw [List.append_nil]
            refine ⟨_, .of_end ⟨['\x7d'], ⟨(name, value), [], ?_⟩, nofun⟩⟩
            simp [resultsText, resultTexts, Closing.text]
          · next hcomma hclosed hend =>
              cases hnext
              exact ⟨_, halts_after_result hcomma (fun _ => hclosed) hend rfl⟩
          · next hcomma hend =>
              cases hnext
              exact ⟨_, halts_after_result hcomma nofun hend rfl⟩

end

/-! ## Whole texts -/

/-- The beginning of a text is the longest one that can be completed to what is accepted. -/
structure LongestViable (accepted : List Char → Prop) (text head : List Char) : Prop where
  beginning : head <+: text
  viable : ∃ more, accepted (head ++ more)
  longest : ∀ other, other <+: text → (∃ more, accepted (other ++ more)) → other <+: head

/-- When the text ends too early, all of it was read. -/
theorem Halts.eq_of_premature {form : Form} {input head : List Char} {stop : Stop}
    (h : Halts form input stop head) (hpremature : stop.cause.isPremature = true) :
    head = input := by
  rw [h.split, h.premature hpremature, List.append_nil]

/-- What is accepted as a whole. -/
def wholeForm (accepted : List Char → Prop) : Form := fun taken left => left = [] ∧ accepted taken

theorem Halts.longestViable {accepted : List Char → Prop} {text head : List Char} {stop : Stop}
    (h : Halts (wholeForm accepted) text stop head) : LongestViable accepted text head := by
  obtain ⟨more, -, hmore⟩ := h.viable
  refine ⟨⟨stop.unread, h.split.symm⟩, ⟨more, hmore⟩, ?_⟩
  rintro other hother ⟨last, hlast⟩
  rcases List.prefix_or_prefix_of_prefix hother ⟨stop.unread, h.split.symm⟩ with hle | ⟨rest, rfl⟩
  · exact hle
  cases rest with
  | nil => simp
  | cons c others =>
      obtain ⟨tail, htail⟩ := hother
      have hunread : stop.unread = c :: (others ++ tail) := by
        rw [h.split, List.append_assoc, List.append_cancel_left_eq] at htail
        exact htail.symm
      refine absurd ?_ (h.barred c _ hunread (others ++ last) _ [] ⟨rfl, hlast⟩)
      simp

/-- The texts that are read as a value. -/
def ReadsValue (text : List Char) : Prop :=
  ∃ value, readValue text = .ok value

/-- The texts that are read as entries. -/
def ReadsEntries (text : List Char) : Prop :=
  ∃ entries, readEntries text = .ok entries

theorem readsValue_iff {text : List Char} : ReadsValue text ↔ ∃ tree : Tree, tree.text = text := by
  constructor
  · rintro ⟨value, hread⟩
    obtain ⟨tree, htext, -⟩ := readValue_eq_ok_iff.mp hread
    exact ⟨tree, htext⟩
  · rintro ⟨tree, htext⟩
    exact ⟨_, readValue_eq_ok_iff.mpr ⟨tree, htext, rfl⟩⟩

theorem readsEntries_iff {text : List Char} :
    ReadsEntries text ↔ ∃ results, resultsText results = text := by
  constructor
  · rintro ⟨entries, hread⟩
    obtain ⟨results, htext, -⟩ := readEntries_eq_ok_iff.mp hread
    exact ⟨results, htext⟩
  · rintro ⟨results, htext⟩
    exact ⟨_, readEntries_eq_ok_iff.mpr ⟨results, htext, rfl⟩⟩

/-- Reading a whole value stops behind the longest beginning that can be completed to a value. -/
theorem halts_of_readValue {input : List Char} {stop : Stop} (h : readValue input = .error stop) :
    ∃ head, Halts (wholeForm ReadsValue) input stop head := by
  rw [readValue, bind_eq_error] at h
  rcases h with hvalue | ⟨⟨value, rest⟩, hvalue, hrest⟩
  · obtain ⟨head, hhead⟩ := halts_of_readValueWithin hvalue (by omega)
    refine ⟨head, hhead.under [] ?_ ?_⟩
    · rintro _ ⟨tree, rfl⟩
      exact ⟨[], rfl, readsValue_iff.mpr ⟨tree, by simp⟩⟩
    · rintro taken left tail ⟨rfl, htaken⟩ rfl -
      obtain ⟨tree, rfl⟩ := readsValue_iff.mp htaken
      exact ⟨_, [], ⟨tree, rfl⟩, rfl⟩
  · obtain ⟨tree, rfl, -⟩ := exists_tree_of_readValueWithin hvalue
    cases rest with
    | nil => cases hrest
    | cons c others =>
        cases hrest
        refine ⟨_, .of_char ⟨[], rfl, readsValue_iff.mpr ⟨tree, by simp⟩⟩ ?_ rfl⟩
        -- no value goes on behind a value
        rintro more taken left ⟨rfl, htaken⟩ heq
        obtain ⟨other, rfl⟩ := readsValue_iff.mp htaken
        cases (Tree.text_append_inj other tree heq).2

theorem halts_of_readEntries {input : List Char} {stop : Stop}
    (h : readEntries input = .error stop) :
    ∃ head, Halts (wholeForm ReadsEntries) input stop head := by
  cases input with
  | nil => cases h
  | cons c tail =>
      rw [readEntries, map_eq_error] at h
      · obtain ⟨head, hhead⟩ := halts_of_readEntriesWithin h (by omega)
        refine ⟨head, hhead.under [] ?_ ?_⟩
        · rintro _ ⟨⟨result, others, rfl⟩, -⟩
          exact ⟨[], rfl, readsEntries_iff.mpr ⟨result :: others, by simp [Closing.text]⟩⟩
        · rintro taken left tail ⟨rfl, htaken⟩ rfl hfirst
          obtain ⟨results, rfl⟩ := readsEntries_iff.mp htaken
          cases results with
          | nil => simp [resultsText, resultTexts] at hfirst
          | cons result others =>
              exact ⟨_, [], ⟨⟨result, others, by simp [Closing.text]⟩, fun _ => rfl⟩, rfl⟩
      · simp

end DebugBridge.Value
