import DebugBridge.Proofs.Record.RoundTrip
import DebugBridge.Proofs.Value.Viability

/-!
# Where failures point

A line that breaks the grammar inside the entries of its record fails at the end of the longest
viable beginning of these entries, counted in bytes from the beginning of the line, so the mark in
the text of the failure stands right before the first character that cannot be.  A line with an
ill-formed head or an unknown class fails behind its first character.

## Main statements

* `failure_behind_longest_viable`: where each failure points.
-/

namespace DebugBridge

namespace Text

/-! ## Offsets -/

@[simp]
theorem utf8Length_nil : utf8Length [] = 0 :=
  rfl

@[simp]
theorem utf8Length_cons (c : Char) (cs : List Char) :
    utf8Length (c :: cs) = c.utf8Size + utf8Length cs :=
  rfl

@[simp]
theorem utf8Length_append (first second : List Char) :
    utf8Length (first ++ second) = utf8Length first + utf8Length second := by
  induction first with
  | nil => simp
  | cons c rest ih => rw [List.cons_append, utf8Length_cons, utf8Length_cons, ih]; omega

/-- The length of a beginning is an offset at which the text can be cut. -/
theorem splitAtByte_utf8Length (front rest : List Char) :
    splitAtByte (utf8Length front) (front ++ rest) = some (front, rest) := by
  induction front with
  | nil => cases rest <;> rfl
  | cons c others ih =>
      have hpos := c.utf8Size_pos
      obtain ⟨offset, hoffset⟩ : ∃ offset, utf8Length (c :: others) = offset + 1 :=
        ⟨utf8Length (c :: others) - 1, by rw [utf8Length_cons]; omega⟩
      have hrest : offset + 1 - c.utf8Size = utf8Length others := by
        rw [← hoffset, utf8Length_cons]
        omega
      have hlt : ¬ offset + 1 < c.utf8Size := by
        rw [← hoffset, utf8Length_cons]
        omega
      rw [hoffset, List.cons_append, splitAtByte, if_neg hlt, hrest, ih]
      · rfl
      · omega

end Text

namespace ParseFailure

/-- A failure points in its line behind `front`, in front of `rest`. -/
structure PointsBetween (failure : ParseFailure) (front rest : List Char) : Prop where
  line : failure.line = String.ofList (front ++ rest)
  position : failure.position = Text.utf8Length front
  /-- no character is cut in two -/
  boundary : Text.splitAtByte failure.position failure.line.toList = some (front, rest)
  marked : failure.marked = String.ofList front ++ "[!]" ++ String.ofList rest

theorem pointsBetween_ofLine (message : String) (front rest : List Char) :
    (ofLine message (front ++ rest) (Text.utf8Length front)).PointsBetween front rest := by
  have hposition : (ofLine message (front ++ rest) (Text.utf8Length front)).position =
      Text.utf8Length front := by
    show min (Text.utf8Length front) (Text.utf8Length (front ++ rest)) = _
    rw [Text.utf8Length_append]
    omega
  have hboundary : Text.splitAtByte
      (ofLine message (front ++ rest) (Text.utf8Length front)).position
      (ofLine message (front ++ rest) (Text.utf8Length front)).line.toList = some (front, rest) := by
    rw [hposition, ofLine, String.toList_ofList, Text.splitAtByte_utf8Length]
  refine ⟨rfl, hposition, hboundary, ?_⟩
  rw [marked, hboundary]

/-- The place where reading has stopped in a text is one in the line that ends with the text. -/
theorem pointsBetween_ofStop {form : Value.Form} {input head : List Char} {stop : Value.Stop}
    (h : Value.Halts form input stop head) (front : List Char) :
    (ofStop stop input (front ++ input) (Text.utf8Length front)).PointsBetween (front ++ head)
      stop.unread := by
  have hoffset : stop.offset input + Text.utf8Length front = Text.utf8Length (front ++ head) := by
    have hlength := congrArg Text.utf8Length h.split
    rw [Text.utf8Length_append] at hlength
    rw [Value.Stop.offset, Text.utf8Length_append]
    omega
  have hline : front ++ input = (front ++ head) ++ stop.unread := by
    rw [List.append_assoc, ← h.split]
  rw [ofStop, hoffset, hline]
  exact pointsBetween_ofLine _ _ _

end ParseFailure

namespace Record

/-! ## How a line can fail -/

/-- The characters that begin a record with a class. -/
def sigils : List Char :=
  ['^', '*', '=']

/-- A line breaks the grammar inside the entries of its record, which stand behind `opening`. -/
structure FailsInBody (line opening body : List Char) (stop : Value.Stop) : Prop where
  line_eq : line = opening ++ body
  opening_eq : ∃ sigil name, sigil ∈ sigils ∧ opening = sigil :: (name ++ [',']) ∧
    splitHead? (name ++ ',' :: body) = some (name, some body)
  stops : Value.readEntries body = .error stop

/-- A line breaks the grammar in front of the entries. -/
inductive FailsInHead : List Char → Prop
  | malformed {sigil : Char} {text : List Char} (hsigil : sigil ∈ sigils)
      (htext : splitHead? text = none) : FailsInHead (sigil :: text)
  /-- the class of a result is unknown, and the entries behind it are none or in order -/
  | unknown {text name : List Char} {body? : Option (List Char)}
      (htext : splitHead? text = some (name, body?))
      (hbody : ∀ body ∈ body?, Value.ReadsEntries body)
      (hclass : Status.ofClass? (String.ofList name) = none) : FailsInHead ('^' :: text)

theorem eq_of_splitHead? {text name body : List Char}
    (h : splitHead? text = some (name, some body)) : text = name ++ ',' :: body := by
  have htext := List.takeWhile_append_dropWhile (p := inClass) (l := text)
  unfold splitHead? at h
  simp only at h
  split at h
  · cases h
  · split at h
    · cases h
    · next rest hdrop =>
        split at h
        · cases h
        · cases h
          rw [← hdrop]
          exact htext.symm
    · cases h

/-- What can be wrong behind the first character of a record with a class. -/
theorem readHead_eq_error_iff {line text : List Char} {failure : ParseFailure} :
    readHead line text = .error failure ↔
      (splitHead? text = none ∧ failure = .ofLine "malformed record header" line 1) ∨
      ∃ name body stop, splitHead? text = some (name, some body) ∧
        Value.readEntries body = .error stop ∧
        failure = .ofStop stop body line (Text.utf8Length name + 2) := by
  constructor
  · intro h
    unfold readHead at h
    split at h
    · next htext =>
        cases h
        exact .inl ⟨htext, rfl⟩
    · cases h
    · next name body htext =>
        split at h
        · cases h
        · next stop hbody =>
            cases h
            exact .inr ⟨name, body, stop, htext, hbody, rfl⟩
  · rintro (⟨htext, rfl⟩ | ⟨name, body, stop, htext, hbody, rfl⟩)
    · rw [readHead, htext]
    · simp only [readHead, htext, hbody]

theorem exists_of_readHead_eq_ok {line text : List Char} {name : String} {payload : Option Value}
    (h : readHead line text = .ok (name, payload)) :
    ∃ letters body?, splitHead? text = some (letters, body?) ∧ name = String.ofList letters ∧
      ∀ body ∈ body?, Value.ReadsEntries body := by
  unfold readHead at h
  split at h
  · cases h
  · next letters htext =>
      cases h
      exact ⟨letters, none, htext, rfl, nofun⟩
  · next letters body htext =>
      split at h
      · next entries hbody =>
          cases h
          refine ⟨letters, some body, htext, rfl, ?_⟩
          rintro _ ⟨⟩
          exact ⟨entries, hbody⟩
      · cases h

/-- Whatever the sort of the record, its line fails where its head does. -/
theorem read_of_readHead_error {line : String} {sigil : Char} {text : List Char}
    {failure : ParseFailure} (hsigil : sigil ∈ sigils) (hline : trimLine line.toList = sigil :: text)
    (h : readHead (sigil :: text) text = .error failure) : read line = .error failure := by
  have hidle : isIdle (sigil :: text) = false := by
    refine isIdle_cons ?_ ?_ text
    all_goals
      revert hsigil
      simp only [sigils, List.mem_cons, List.not_mem_nil, or_false]
      rintro (rfl | rfl | rfl) <;> decide
  rw [read, hline]
  simp only [hidle, Bool.false_eq_true, if_false]
  simp only [sigils, List.mem_cons, List.not_mem_nil, or_false] at hsigil
  rcases hsigil with rfl | rfl | rfl
  · simp only [readTrimmed, readResult, h]
    rfl
  · simp only [readTrimmed, readAsync, h]
    rfl
  · simp only [readTrimmed, readAsync, h]
    rfl

/-- A result of an unknown class fails behind its first character. -/
theorem read_of_unknown {line : String} {text name : List Char} {body? : Option (List Char)}
    (hline : trimLine line.toList = '^' :: text) (htext : splitHead? text = some (name, body?))
    (hbody : ∀ body ∈ body?, Value.ReadsEntries body)
    (hclass : Status.ofClass? (String.ofList name) = none) : ∃ message,
      read line = .error (.ofLine message ('^' :: text) 1) := by
  obtain ⟨payload, hhead⟩ : ∃ payload,
      readHead ('^' :: text) text = .ok (String.ofList name, payload) := by
    cases body? with
    | none => exact ⟨none, by rw [readHead, htext]⟩
    | some body =>
        obtain ⟨entries, hentries⟩ := hbody body rfl
        exact ⟨some (.tuple entries), by simp only [readHead, htext, hentries]⟩
  have hidle : isIdle ('^' :: text) = false := isIdle_cons rfl (by decide) text
  refine ⟨"unknown result class '" ++ String.ofList name ++ "'", ?_⟩
  rw [read, hline]
  simp only [hidle, Bool.false_eq_true, if_false, readTrimmed, readResult, hhead, bind, Except.bind,
    hclass]
  rfl

/-- What is wrong behind the first character is wrong with the head or inside the entries. -/
theorem fails_of_readHead_error {sigil : Char} {text : List Char} {failure : ParseFailure}
    (hsigil : sigil ∈ sigils) (h : readHead (sigil :: text) text = .error failure) :
    FailsInHead (sigil :: text) ∨
      ∃ opening body stop, FailsInBody (sigil :: text) opening body stop := by
  rcases readHead_eq_error_iff.mp h with ⟨htext, -⟩ | ⟨name, body, stop, htext, hbody, -⟩
  · exact .inl (.malformed hsigil htext)
  · obtain rfl := eq_of_splitHead? htext
    exact .inr ⟨sigil :: (name ++ [',']), body, stop, by simp, ⟨sigil, name, hsigil, rfl, htext⟩,
      hbody⟩

theorem fails_of_readResult_error {text : List Char} {failure : ParseFailure}
    (h : readResult ('^' :: text) text = .error failure) : FailsInHead ('^' :: text) ∨
      ∃ opening body stop, FailsInBody ('^' :: text) opening body stop := by
  rw [readResult, bind_eq_error] at h
  rcases h with hhead | ⟨⟨name, payload⟩, hhead, hclass⟩
  · exact fails_of_readHead_error (by simp [sigils]) hhead
  · obtain ⟨letters, body?, htext, rfl, hbody⟩ := exists_of_readHead_eq_ok hhead
    simp only at hclass
    split at hclass
    · cases hclass
    · next hunknown => exact .inl (.unknown htext hbody hunknown)

theorem fails_of_readAsync_error {sigil : Char} {text : List Char} {failure : ParseFailure}
    (hsigil : sigil ∈ sigils) (h : readAsync (sigil :: text) text = .error failure) :
    FailsInHead (sigil :: text) ∨
      ∃ opening body stop, FailsInBody (sigil :: text) opening body stop := by
  rw [readAsync, bind_eq_error] at h
  rcases h with hhead | ⟨head, -, hpure⟩
  · exact fails_of_readHead_error hsigil hhead
  · cases hpure

/-- A line that fails does so in one of these ways. -/
theorem fails_of_read_error {line : String} {failure : ParseFailure}
    (h : read line = .error failure) : FailsInHead (trimLine line.toList) ∨
      ∃ opening body stop, FailsInBody (trimLine line.toList) opening body stop := by
  unfold read at h
  simp only at h
  split at h
  · cases h
  · generalize trimLine line.toList = trimmed at h ⊢
    unfold readTrimmed at h
    split at h
    · exact fails_of_readResult_error (map_eq_error.mp h)
    · exact fails_of_readAsync_error (by simp [sigils]) (map_eq_error.mp h)
    · exact fails_of_readAsync_error (by simp [sigils]) (map_eq_error.mp h)
    all_goals cases h

/-! ## Where failures point -/

/-- A line that fails inside the entries of its record fails at the end of their longest viable
beginning. -/
theorem FailsInBody.exists_failure {line : String} {opening body : List Char} {stop : Value.Stop}
    (h : FailsInBody (trimLine line.toList) opening body stop) :
    ∃ failure head, read line = .error failure ∧ failure.message = stop.cause.message ∧
      Value.Halts (Value.wholeForm Value.ReadsEntries) body stop head ∧
      failure.PointsBetween (opening ++ head) stop.unread := by
  obtain ⟨head, hhead⟩ := Value.halts_of_readEntries h.stops
  obtain ⟨sigil, name, hsigil, hopening, htext⟩ := h.opening_eq
  have hline : trimLine line.toList = sigil :: (name ++ ',' :: body) := by
    rw [h.line_eq, hopening]
    simp
  have hlength : Text.utf8Length opening = Text.utf8Length name + 2 := by
    have hone : sigil.utf8Size = 1 := by
      revert hsigil
      simp only [sigils, List.mem_cons, List.not_mem_nil, or_false]
      rintro (rfl | rfl | rfl) <;> rfl
    have hcomma : Char.utf8Size ',' = 1 := rfl
    rw [hopening, Text.utf8Length_cons, Text.utf8Length_append, Text.utf8Length_cons, hone, hcomma]
    simp
    omega
  have hfailure : readHead (sigil :: (name ++ ',' :: body)) (name ++ ',' :: body) =
      .error (.ofStop stop body (opening ++ body) (Text.utf8Length opening)) := by
    refine readHead_eq_error_iff.mpr (.inr ⟨name, body, stop, htext, h.stops, ?_⟩)
    rw [hlength, ← hline, h.line_eq]
  exact ⟨_, head, read_of_readHead_error hsigil hline hfailure, rfl, hhead,
    ParseFailure.pointsBetween_ofStop hhead opening⟩

/-- A line that fails in front of the entries fails behind its first character. -/
theorem FailsInHead.exists_failure {line : String} (h : FailsInHead (trimLine line.toList)) :
    ∃ failure, read line = .error failure ∧
      failure.line = String.ofList (trimLine line.toList) ∧ failure.position = 1 := by
  have hpoints (message : String) (c : Char) (text : List Char) :
      (ParseFailure.ofLine message (c :: text) 1).line = String.ofList (c :: text) ∧
        (ParseFailure.ofLine message (c :: text) 1).position = 1 := by
    refine ⟨rfl, ?_⟩
    have hpos := c.utf8Size_pos
    show min 1 (Text.utf8Length (c :: text)) = 1
    rw [Text.utf8Length_cons]
    omega
  generalize htrim : trimLine line.toList = trimmed at h
  cases h with
  | malformed hsigil htext =>
      refine ⟨_, read_of_readHead_error hsigil htrim
        (readHead_eq_error_iff.mpr (.inl ⟨htext, rfl⟩)), hpoints _ _ _⟩
  | unknown htext hbody hclass =>
      obtain ⟨message, hread⟩ := read_of_unknown htrim htext hbody hclass
      exact ⟨_, hread, hpoints _ _ _⟩

/-- **Failures point behind the longest viable beginning.**  When a text cannot be read as a value or
as entries, the failure points, between two characters, behind the longest beginning of the text
that can be completed to one that can be read, and that is the whole text when it ends too early.
When a line fails inside the entries of its record, the failure shows the trimmed line and points
behind the longest such beginning of the entries there.  A line can fail otherwise only by its head
or its class, and then at position 1. -/
theorem failure_behind_longest_viable :
    (∀ input stop, Value.readValue input = .error stop →
      ∃ head, Value.LongestViable Value.ReadsValue input head ∧
        (ParseFailure.ofStop stop input input 0).PointsBetween head stop.unread ∧
        (stop.cause.isPremature = true → head = input)) ∧
    (∀ input stop, Value.readEntries input = .error stop →
      ∃ head, Value.LongestViable Value.ReadsEntries input head ∧
        (ParseFailure.ofStop stop input input 0).PointsBetween head stop.unread ∧
        (stop.cause.isPremature = true → head = input)) ∧
    (∀ line opening body stop, FailsInBody (trimLine line.toList) opening body stop →
      ∃ failure head, read line = .error failure ∧ failure.message = stop.cause.message ∧
        failure.line = String.ofList (trimLine line.toList) ∧
        Value.LongestViable Value.ReadsEntries body head ∧
        failure.position = Text.utf8Length opening + Text.utf8Length head ∧
        failure.PointsBetween (opening ++ head) stop.unread ∧
        (stop.cause.isPremature = true → head = body)) ∧
    (∀ line, FailsInHead (trimLine line.toList) → ∃ failure, read line = .error failure ∧
      failure.line = String.ofList (trimLine line.toList) ∧ failure.position = 1) ∧
    (∀ line failure, read line = .error failure → FailsInHead (trimLine line.toList) ∨
      ∃ opening body stop, FailsInBody (trimLine line.toList) opening body stop) := by
  refine ⟨?_, ?_, ?_, fun line => FailsInHead.exists_failure, fun line failure =>
    fails_of_read_error⟩
  · intro input stop h
    obtain ⟨head, hhead⟩ := Value.halts_of_readValue h
    exact ⟨head, hhead.longestViable, ParseFailure.pointsBetween_ofStop hhead [],
      hhead.eq_of_premature⟩
  · intro input stop h
    obtain ⟨head, hhead⟩ := Value.halts_of_readEntries h
    exact ⟨head, hhead.longestViable, ParseFailure.pointsBetween_ofStop hhead [],
      hhead.eq_of_premature⟩
  · intro line opening body stop h
    obtain ⟨failure, head, hread, hmessage, hhead, hpoints⟩ := h.exists_failure
    refine ⟨failure, head, hread, hmessage, ?_, hhead.longestViable, ?_, hpoints,
      hhead.eq_of_premature⟩
    · rw [hpoints.line, h.line_eq, hhead.split, List.append_assoc]
    · rw [hpoints.position, Text.utf8Length_append]

/-- A line with characters of two bytes, in which a value is missing. -/
theorem failure_behind_longest_viable_of_umlaut :
    read " ^done,ä=\"ö\",b=,c\n" = .error ⟨"expected a name", 16, "^done,ä=\"ö\",b=,c"⟩ ∧
      ∃ head, Value.LongestViable Value.ReadsEntries "ä=\"ö\",b=,c".toList head ∧
        Text.utf8Length head = 10 := by
  have hread : read " ^done,ä=\"ö\",b=,c\n" =
      .error ⟨"expected a name", 16, "^done,ä=\"ö\",b=,c"⟩ := rfl
  have hfails : FailsInBody (trimLine " ^done,ä=\"ö\",b=,c\n".toList) "^done,".toList
      "ä=\"ö\",b=,c".toList ⟨.nameExpected, [',', 'c']⟩ :=
    ⟨rfl, ⟨'^', "done".toList, by decide, rfl, rfl⟩, rfl⟩
  obtain ⟨failure, head, hfailure, -, -, hviable, hposition, -⟩ :=
    failure_behind_longest_viable.2.2.1 _ _ _ _ hfails
  cases hread.symm.trans hfailure
  have hposition : 16 = 6 + Text.utf8Length head := hposition
  exact ⟨hread, head, hviable, by omega⟩

end Record

end DebugBridge
