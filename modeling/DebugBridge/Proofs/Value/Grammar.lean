import DebugBridge.Value.Basic

/-!
# The grammar of values

The derivations of

  value  := '"' piece* '"' | '{' [result (',' result)*] '}' | '[' [value (',' value)*] ']' | result
  result := name '=' value

as trees.  A tree has a text (`Tree.text`), what it derives, and a meaning (`Tree.value`), what the
text stands for.  A piece of a quoted text is a character other than a quote or a backslash, or a
backslash together with the character behind it; a name is one or more characters that do not end
it.

## Main statements

* `Tree.text_append_inj`: a text has at most one tree, and no text of a tree is a proper beginning
  of another one.
* `resultsText_append_inj`: the same for results with commas between them that make up a whole text.

Both rest on the first character of a text, which tells the four productions apart.
-/

namespace DebugBridge.Value.Grammar

/-- The characters that end a name. -/
def delimiters : List Char :=
  ['=', ',', '\x7b', '\x7d', '[', ']', '"']

/-- A piece of a quoted text. -/
inductive Piece
  | plain (c : Char) (ordinary : c ≠ '"' ∧ c ≠ '\\')
  | escape (escaped : Char)
deriving DecidableEq, Repr

/-- What a piece is written as. -/
def Piece.text : Piece → List Char
  | plain c _ => [c]
  | escape escaped => ['\\', escaped]

/-- The text inside the quotes. -/
def bodyText (body : List Piece) : List Char :=
  body.flatMap Piece.text

@[simp]
theorem bodyText_nil : bodyText [] = [] :=
  rfl

@[simp]
theorem bodyText_cons (piece : Piece) (others : List Piece) :
    bodyText (piece :: others) = piece.text ++ bodyText others :=
  rfl

/-- The name of a result. -/
structure Name where
  text : List Char
  nonempty : text ≠ []
  free : ∀ c ∈ text, c ∉ delimiters
deriving DecidableEq, Repr

/-- A derivation of a value. -/
inductive Tree
  | quoted (body : List Piece)
  | braces (results : List (Name × Tree))
  | brackets (items : List Tree)
  | bare (name : Name) (value : Tree)
deriving Repr

/-- Texts with commas between them. -/
def separated : List (List Char) → List Char
  | [] => []
  | first :: others => first ++ others.flatMap (',' :: ·)

@[simp]
theorem separated_nil : separated [] = [] :=
  rfl

@[simp]
theorem separated_singleton (only : List Char) : separated [only] = only := by
  simp [separated]

@[simp]
theorem separated_cons_cons (first second : List Char) (others : List (List Char)) :
    separated (first :: second :: others) = first ++ ',' :: separated (second :: others) := by
  simp [separated]

mutual

/-- What a tree derives. -/
def Tree.text : Tree → List Char
  | .quoted body => '"' :: (bodyText body ++ ['"'])
  | .braces results => '\x7b' :: (separated (resultTexts results) ++ ['\x7d'])
  | .brackets items => '[' :: (separated (itemTexts items) ++ [']'])
  | .bare name value => name.text ++ '=' :: value.text

/-- What each of the items derives. -/
def itemTexts : List Tree → List (List Char)
  | [] => []
  | item :: rest => item.text :: itemTexts rest

/-- What each of the results derives. -/
def resultTexts : List (Name × Tree) → List (List Char)
  | [] => []
  | (name, value) :: rest => (name.text ++ '=' :: value.text) :: resultTexts rest

end

/-- What results with commas between them derive. -/
def resultsText (results : List (Name × Tree)) : List Char :=
  separated (resultTexts results)

/-- What items with commas between them derive. -/
def itemsText (items : List Tree) : List Char :=
  separated (itemTexts items)

@[simp]
theorem Tree.text_quoted (body : List Piece) :
    (quoted body).text = '"' :: (bodyText body ++ ['"']) := by
  rw [text]

@[simp]
theorem Tree.text_braces (results : List (Name × Tree)) :
    (braces results).text = '\x7b' :: (resultsText results ++ ['\x7d']) := by
  rw [text, resultsText]

@[simp]
theorem Tree.text_brackets (items : List Tree) :
    (brackets items).text = '[' :: (itemsText items ++ [']']) := by
  rw [text, itemsText]

@[simp]
theorem Tree.text_bare (name : Name) (value : Tree) :
    (bare name value).text = name.text ++ '=' :: value.text := by
  rw [text]

mutual

/-- What the text of a tree stands for: a quoted text for what is between its quotes, brackets for
the list of their items, braces for the results folded together from left to right, and a result by
itself for a tuple of one entry. -/
def Tree.value : Tree → Value
  | .quoted body => .text (String.ofList (bodyText body))
  | .braces results => .tuple (Entries.collect (namedValues results))
  | .brackets items => .list (itemValues items)
  | .bare name value => .tuple [(String.ofList name.text, value.value)]

/-- What each of the items stands for. -/
def itemValues : List Tree → List Value
  | [] => []
  | item :: rest => item.value :: itemValues rest

/-- The name of each of the results with what its value stands for. -/
def namedValues : List (Name × Tree) → Entries
  | [] => []
  | (name, value) :: rest => (String.ofList name.text, value.value) :: namedValues rest

end

/-! ## Where texts begin and end -/

theorem Name.text_eq_cons (name : Name) :
    ∃ c rest, name.text = c :: rest ∧ c ∉ delimiters := by
  cases hname : name.text with
  | nil => exact absurd hname name.nonempty
  | cons c rest => exact ⟨c, rest, rfl, name.free c (by simp [hname])⟩

/-- The text of a tree begins, according to its production, with a quote, a brace, a bracket, or
the first character of a name. -/
theorem Tree.text_eq_cons (tree : Tree) :
    ∃ c rest, tree.text = c :: rest ∧ match tree with
      | quoted _ => c = '"'
      | braces _ => c = '\x7b'
      | brackets _ => c = '['
      | bare _ _ => c ∉ delimiters := by
  cases tree with
  | quoted body => exact ⟨_, _, text_quoted body, rfl⟩
  | braces results => exact ⟨_, _, text_braces results, rfl⟩
  | brackets items => exact ⟨_, _, text_brackets items, rfl⟩
  | bare name value =>
      obtain ⟨c, rest, hname, hfree⟩ := name.text_eq_cons
      exact ⟨c, rest ++ '=' :: value.text, by rw [text_bare, hname, List.cons_append], hfree⟩

theorem Name.text_append_ne (name : Name) {tail rest : List Char}
    (hrest : ∀ c ∈ rest.head?, c ∈ delimiters) : name.text ++ tail ≠ rest := by
  obtain ⟨c, others, hname, hfree⟩ := name.text_eq_cons
  rintro rfl
  exact hfree (hrest c (by simp [hname]))

theorem Tree.length_text_pos (tree : Tree) : 0 < tree.text.length := by
  obtain ⟨c, tail, htext, -⟩ := tree.text_eq_cons
  simp [htext]

/-- A closing bracket begins no tree. -/
theorem Tree.text_append_ne (tree : Tree) (tail rest : List Char) :
    tree.text ++ tail ≠ ']' :: rest := by
  obtain ⟨c, others, htext, hc⟩ := tree.text_eq_cons
  intro h
  have hhead : c = ']' := by
    rw [htext] at h
    exact (List.cons.inj h).1
  cases tree <;> simp_all [delimiters]

/-! ## Unique readability -/

theorem Piece.text_append_inj {first second : Piece} {rest rest' : List Char}
    (h : first.text ++ rest = second.text ++ rest') : first = second ∧ rest = rest' := by
  cases first with
  | plain c ordinary =>
      cases second with
      | plain c' ordinary' => simpa [text] using h
      | escape escaped' => simp [text, ordinary.2] at h
  | escape escaped =>
      cases second with
      | plain c' ordinary' => simp [text, ordinary'.2.symm] at h
      | escape escaped' => simpa [text] using h

theorem Piece.text_append_ne_quote (piece : Piece) (rest rest' : List Char) :
    piece.text ++ rest ≠ '"' :: rest' := by
  cases piece with
  | plain c ordinary => simp [text, ordinary.1]
  | escape escaped => simp [text]

/-- Where the body of a quoted text ends is determined by the text. -/
theorem bodyText_append_inj {first second : List Piece} {rest rest' : List Char}
    (h : bodyText first ++ '"' :: rest = bodyText second ++ '"' :: rest') :
    first = second ∧ rest = rest' := by
  induction first generalizing second with
  | nil =>
      cases second with
      | nil => simpa using h
      | cons piece' others' =>
          rw [bodyText_cons, List.append_assoc] at h
          exact absurd h.symm (piece'.text_append_ne_quote _ _)
  | cons piece others ih =>
      cases second with
      | nil =>
          rw [bodyText_cons, List.append_assoc] at h
          exact absurd h (piece.text_append_ne_quote _ _)
      | cons piece' others' =>
          rw [bodyText_cons, bodyText_cons, List.append_assoc, List.append_assoc] at h
          obtain ⟨rfl, htail⟩ := Piece.text_append_inj h
          obtain ⟨rfl, rfl⟩ := ih htail
          exact ⟨rfl, rfl⟩

/-- A name is what is in front of the first character that ends it, and that is the equals sign. -/
theorem Name.text_append_eq {name : Name} {free rest more : List Char} {c : Char}
    (hfree : ∀ d ∈ free, d ∉ delimiters) (hc : c ∈ delimiters)
    (h : name.text ++ '=' :: rest = free ++ c :: more) :
    name.text = free ∧ c = '=' ∧ rest = more := by
  have hname : ∀ d ∈ name.text, decide (d ∉ delimiters) = true := by simpa using name.free
  have hother : ∀ d ∈ free, decide (d ∉ delimiters) = true := by simpa using hfree
  have htake := congrArg (List.takeWhile fun d => decide (d ∉ delimiters)) h
  rw [List.takeWhile_append_of_pos hname, List.takeWhile_append_of_pos hother,
    List.takeWhile_cons_of_neg (by simp [delimiters]),
    List.takeWhile_cons_of_neg (by simpa using hc), List.append_nil, List.append_nil] at htake
  rw [htake, List.append_cancel_left_eq, List.cons.injEq] at h
  exact ⟨htake, h.1.symm, h.2⟩

/-- Where a name ends is determined by the equals sign behind it. -/
theorem Name.text_append_inj {first second : Name} {rest rest' : List Char}
    (h : first.text ++ '=' :: rest = second.text ++ '=' :: rest') :
    first = second ∧ rest = rest' := by
  obtain ⟨htext, -, hrest⟩ := text_append_eq second.free (by simp [delimiters]) h
  cases first
  cases second
  obtain rfl := htext
  exact ⟨rfl, hrest⟩

theorem itemsText_cons_append (item : Tree) (others : List Tree) (rest : List Char) :
    itemsText (item :: others) ++ rest = item.text ++
      match others with
      | [] => rest
      | _ :: _ => ',' :: (itemsText others ++ rest) := by
  cases others <;> simp [itemsText, itemTexts]

theorem resultsText_cons_append (name : Name) (value : Tree) (others : List (Name × Tree))
    (rest : List Char) :
    resultsText ((name, value) :: others) ++ rest = name.text ++ '=' :: (value.text ++
      match others with
      | [] => rest
      | _ :: _ => ',' :: (resultsText others ++ rest)) := by
  cases others <;> simp [resultsText, resultTexts]

theorem length_itemsText_cons (item : Tree) (others : List Tree) :
    item.text.length ≤ (itemsText (item :: others)).length ∧
      (others ≠ [] → (itemsText others).length < (itemsText (item :: others)).length) := by
  have h := congrArg List.length (itemsText_cons_append item others [])
  cases others with
  | nil => simp at h ⊢; omega
  | cons next more => simp at h ⊢; omega

theorem length_resultsText_cons (name : Name) (value : Tree) (others : List (Name × Tree)) :
    value.text.length < (resultsText ((name, value) :: others)).length ∧
      (others ≠ [] →
        (resultsText others).length < (resultsText ((name, value) :: others)).length) := by
  have h := congrArg List.length (resultsText_cons_append name value others [])
  cases others with
  | nil => simp at h ⊢; omega
  | cons next more => simp at h ⊢; omega

mutual

/-- A text begins with the text of at most one tree. -/
theorem Tree.text_append_inj (first second : Tree) {rest rest' : List Char}
    (h : first.text ++ rest = second.text ++ rest') : first = second ∧ rest = rest' := by
  obtain ⟨c, tail, htext, hc⟩ := first.text_eq_cons
  obtain ⟨c', tail', htext', hc'⟩ := second.text_eq_cons
  have hhead : c = c' := by
    rw [htext, htext'] at h
    exact (List.cons.inj h).1
  subst hhead
  -- two trees that begin with the same character are of the same production
  cases first with
  | quoted body =>
      cases second with
      | quoted body' =>
          have hbody : bodyText body ++ '"' :: rest = bodyText body' ++ '"' :: rest' := by
            simpa using h
          obtain ⟨rfl, rfl⟩ := bodyText_append_inj hbody
          exact ⟨rfl, rfl⟩
      | _ => simp_all [delimiters]
  | braces results =>
      cases second with
      | braces results' =>
          have hresults : resultsText results ++ '\x7d' :: rest =
              resultsText results' ++ '\x7d' :: rest' := by
            simpa using h
          obtain ⟨rfl, heq⟩ := resultsText_append_inj results results' hresults (by simp) (by simp)
          exact ⟨rfl, (List.cons.inj heq).2⟩
      | _ => simp_all [delimiters]
  | brackets items =>
      cases second with
      | brackets items' =>
          have hitems : itemsText items ++ ']' :: rest = itemsText items' ++ ']' :: rest' := by
            simpa using h
          obtain ⟨rfl, rfl⟩ := itemsText_append_inj items items' hitems
          exact ⟨rfl, rfl⟩
      | _ => simp_all [delimiters]
  | bare name value =>
      cases second with
      | bare name' value' =>
          have hname : name.text ++ '=' :: (value.text ++ rest) =
              name'.text ++ '=' :: (value'.text ++ rest') := by
            simpa using h
          obtain ⟨rfl, hvalue⟩ := Name.text_append_inj hname
          obtain ⟨rfl, rfl⟩ := Tree.text_append_inj value value' hvalue
          exact ⟨rfl, rfl⟩
      | _ => simp_all [delimiters]

/-- Items up to a closing bracket are determined by the text. -/
theorem itemsText_append_inj (first second : List Tree) {rest rest' : List Char}
    (h : itemsText first ++ ']' :: rest = itemsText second ++ ']' :: rest') :
    first = second ∧ rest = rest' := by
  cases first with
  | nil =>
      cases second with
      | nil => simpa using h
      | cons item' others' =>
          rw [itemsText_cons_append] at h
          exact absurd h.symm (item'.text_append_ne _ _)
  | cons item others =>
      cases second with
      | nil =>
          rw [itemsText_cons_append] at h
          exact absurd h (item.text_append_ne _ _)
      | cons item' others' =>
          rw [itemsText_cons_append, itemsText_cons_append] at h
          obtain ⟨rfl, htail⟩ := Tree.text_append_inj item item' h
          cases others with
          | nil =>
              cases others' with
              | nil => exact ⟨rfl, (List.cons.inj htail).2⟩
              | cons next' more' => simp at htail
          | cons next more =>
              cases others' with
              | nil => simp at htail
              | cons next' more' =>
                  obtain ⟨hmore, rfl⟩ := itemsText_append_inj (next :: more) (next' :: more')
                    (List.cons.inj htail).2
                  exact ⟨congrArg (item :: ·) hmore, rfl⟩

/-- Results up to a closing brace or the end are determined by the text. -/
theorem resultsText_append_inj (first second : List (Name × Tree)) {rest rest' : List Char}
    (h : resultsText first ++ rest = resultsText second ++ rest')
    (hrest : ∀ c ∈ rest.head?, c = '\x7d') (hother : ∀ c ∈ rest'.head?, c = '\x7d') :
    first = second ∧ rest = rest' := by
  have hends : ∀ {tail : List Char}, (∀ c ∈ tail.head?, c = '\x7d') →
      ∀ c ∈ tail.head?, c ∈ delimiters := by
    intro tail htail c hc
    simp [htail c hc, delimiters]
  cases first with
  | nil =>
      cases second with
      | nil => simpa using h
      | cons result' others' =>
          rw [resultsText_cons_append result'.1 result'.2] at h
          exact absurd h.symm (result'.1.text_append_ne (hends hrest))
  | cons result others =>
      cases second with
      | nil =>
          rw [resultsText_cons_append result.1 result.2] at h
          exact absurd h (result.1.text_append_ne (hends hother))
      | cons result' others' =>
          obtain ⟨name, value⟩ := result
          obtain ⟨name', value'⟩ := result'
          rw [resultsText_cons_append, resultsText_cons_append] at h
          obtain ⟨rfl, hvalue⟩ := Name.text_append_inj h
          obtain ⟨rfl, htail⟩ := Tree.text_append_inj value value' hvalue
          cases others with
          | nil =>
              cases others' with
              | nil => exact ⟨rfl, htail⟩
              -- what is behind the last result does not begin with a comma
              | cons next' more' =>
                  have hcomma : rest = ',' :: _ := htail
                  exact absurd (hrest ',' (by simp [hcomma])) (by decide)
          | cons next more =>
              cases others' with
              | nil =>
                  have hcomma : rest' = ',' :: _ := htail.symm
                  exact absurd (hother ',' (by simp [hcomma])) (by decide)
              | cons next' more' =>
                  obtain ⟨hmore, rfl⟩ := resultsText_append_inj (next :: more) (next' :: more')
                    (List.cons.inj htail).2 hrest hother
                  exact ⟨congrArg ((name, value) :: ·) hmore, rfl⟩

end

/-- A text has at most one tree. -/
theorem Tree.text_injective : Function.Injective Tree.text := by
  intro first second h
  have happend : first.text ++ [] = second.text ++ [] := by rw [h]
  exact (Tree.text_append_inj first second happend).1

/-- A text has at most one list of results that makes it up. -/
theorem resultsText_injective : Function.Injective resultsText := by
  intro first second h
  have happend : resultsText first ++ [] = resultsText second ++ [] := by rw [h]
  exact (resultsText_append_inj first second happend (by simp) (by simp)).1

end DebugBridge.Value.Grammar
