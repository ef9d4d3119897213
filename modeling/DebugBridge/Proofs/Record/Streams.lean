import DebugBridge.Proofs.Record.Skipping
import Mathlib.Tactic.IntervalCases

/-!
# Stream text is read as it was meant

The records of the three streams carry a text in quotes.  Of the console and the log stream the text
is taken as it stands; in the output of the target, escapes are resolved.  A debugger is free to
write each character of that output in several ways, and whichever it takes, the text comes back.

## Strategy

A `Glyph` is a character together with the way in which it is written.  `unescape_glyph` takes one
glyph off a text, whatever comes behind it: an escape of three digits is full, so no digit behind it
can be taken for one of its own, and a letter escape has claimed its letter.

## Main statements

* `stream_text_recovered`: the text of each stream.
-/

namespace DebugBridge

namespace Text

/-! ## How a character can be written -/

/-- The characters that have a letter escape, with their letters. -/
def escapeLetters : List (Char × Char) :=
  [('\n', 'n'), ('\t', 't'), ('\r', 'r'), ('\\', '\\'), ('"', '"')]

/-- The octal digit of a number below 8. -/
def octalDigit (n : Nat) : Char :=
  Char.ofNat ('0'.toNat + n)

/-- A character of a text as it is written in a target record. -/
inductive Glyph
  | raw (c : Char) (plain : c ≠ '\\')
  | letter (c mark : Char) (listed : (c, mark) ∈ escapeLetters)
  /-- by the three octal digits of its code -/
  | octal (c : Char) (ascii : c.toNat < 128)

namespace Glyph

/-- The character that is meant. -/
def char : Glyph → Char
  | raw c _ => c
  | letter c _ _ => c
  | octal c _ => c

/-- What stands for it in the record. -/
def written : Glyph → List Char
  | raw c _ => [c]
  | letter _ mark _ => ['\\', mark]
  | octal c _ =>
      ['\\', octalDigit (c.toNat / 64), octalDigit (c.toNat / 8 % 8), octalDigit (c.toNat % 8)]

end Glyph

/-- Every text can be written. -/
theorem exists_glyphs (text : List Char) : ∃ glyphs : List Glyph, glyphs.map Glyph.char = text := by
  induction text with
  | nil => exact ⟨[], rfl⟩
  | cons c rest ih =>
      obtain ⟨glyphs, rfl⟩ := ih
      by_cases hc : c = '\\'
      · exact ⟨.letter c '\\' (by simp [hc, escapeLetters]) :: glyphs, rfl⟩
      · exact ⟨.raw c hc :: glyphs, rfl⟩

/-! ## Resolving escapes -/

theorem unescape_cons {c : Char} (hc : c ≠ '\\') (rest : List Char) :
    unescape (c :: rest) = c :: unescape rest := by
  rw [unescape]
  · exact fun h _ => hc h
  · exact fun _ _ h _ => hc h

theorem unescape_letter {mark c : Char} (h : letterEscape? mark = some c) (rest : List Char) :
    unescape ('\\' :: mark :: rest) = c :: unescape rest := by
  rw [unescape.eq_def]
  simp only [h]

theorem letterEscape?_of_mem {c mark : Char} (h : (c, mark) ∈ escapeLetters) :
    letterEscape? mark = some c := by
  simp only [escapeLetters, List.mem_cons, Prod.mk.injEq, List.not_mem_nil, or_false] at h
  rcases h with ⟨rfl, rfl⟩ | ⟨rfl, rfl⟩ | ⟨rfl, rfl⟩ | ⟨rfl, rfl⟩ | ⟨rfl, rfl⟩ <;> rfl

/-- Three octal digits make one character, also when a fourth one comes behind them. -/
theorem unescape_octal {a b c : Char} (ha : isOctal a = true) (hb : isOctal b = true)
    (hc : isOctal c = true) (rest : List Char) :
    unescape ('\\' :: a :: b :: c :: rest) = ofOctal [a, b, c] :: unescape rest := by
  have hletter : letterEscape? a = none := by
    unfold letterEscape?
    split <;> first | rfl | (revert ha; decide)
  rw [unescape, hletter]
  simp only [ha, hb, hc, if_true]

theorem toNat_octalDigit {n : Nat} (hn : n < 8) : (octalDigit n).toNat = '0'.toNat + n := by
  interval_cases n <;> rfl

theorem isOctal_octalDigit {n : Nat} (hn : n < 8) : isOctal (octalDigit n) = true := by
  interval_cases n <;> rfl

/-- The three octal digits of a code are read as its character, whatever comes behind them. -/
theorem unescape_digits {code : Nat} (hcode : code < 512) (rest : List Char) :
    unescape ('\\' :: octalDigit (code / 64) :: octalDigit (code / 8 % 8) ::
      octalDigit (code % 8) :: rest) = Char.ofNat code :: unescape rest := by
  have hspelt : 8 * (8 * (8 * 0 + code / 64) + code / 8 % 8) + code % 8 = code := by omega
  have hhigh := toNat_octalDigit (n := code / 64) (by omega)
  have hmiddle := toNat_octalDigit (n := code / 8 % 8) (by omega)
  have hlow := toNat_octalDigit (n := code % 8) (by omega)
  rw [unescape_octal (isOctal_octalDigit (by omega)) (isOctal_octalDigit (by omega))
    (isOctal_octalDigit (by omega))]
  simp only [ofOctal, List.foldl_cons, List.foldl_nil, hhigh, hmiddle, hlow,
    Nat.add_sub_cancel_left, hspelt]

/-- A glyph is resolved to its character, whatever comes behind it. -/
theorem unescape_glyph (glyph : Glyph) (rest : List Char) :
    unescape (glyph.written ++ rest) = glyph.char :: unescape rest := by
  cases glyph with
  | raw c plain => exact unescape_cons plain rest
  | letter c mark listed => exact unescape_letter (letterEscape?_of_mem listed) rest
  | octal c ascii =>
      have hcode : c.toNat < 512 := by omega
      have hdigits := unescape_digits hcode rest
      rw [Char.ofNat_toNat] at hdigits
      exact hdigits

theorem unescape_glyphs (glyphs : List Glyph) :
    unescape (glyphs.flatMap Glyph.written) = glyphs.map Glyph.char := by
  induction glyphs with
  | nil => rfl
  | cons glyph rest ih => rw [List.flatMap_cons, unescape_glyph, ih, List.map_cons]

/-! ## Quotes -/

/-- Exactly the outer quotes are taken off. -/
theorem unquote_quoted (body : List Char) : unquote ('"' :: (body ++ ['"'])) = body := by
  rw [unquote, if_pos (List.getLast?_concat ..), List.dropLast_concat]

end Text

namespace Record

/-- A line of a stream is neither trimmed nor taken for a prompt. -/
theorem read_quoted {sign : Char} (hsign : sign ∈ ['~', '&', '@']) (body : List Char) :
    read (String.ofList (sign :: '"' :: (body ++ ['"']))) =
      readTrimmed (sign :: '"' :: (body ++ ['"'])) := by
  obtain ⟨hblank, hprompt⟩ : Text.isBlank sign = false ∧ sign ≠ '(' := by
    simp only [List.mem_cons, List.not_mem_nil, or_false] at hsign
    rcases hsign with rfl | rfl | rfl <;> decide
  have hlast : ('"' :: (body ++ ['"'])).getLast? = some '"' := by
    rw [← List.cons_append, List.getLast?_concat]
  have htrim : trimLine (String.ofList (sign :: '"' :: (body ++ ['"']))).toList =
      sign :: '"' :: (body ++ ['"']) := by
    have hbehind := @trimLine_of_not_isBlank [] ('"' :: (body ++ ['"'])) sign (by simp) hblank
    rw [Text.dropTrailing_of_getLast? hlast rfl] at hbehind
    rw [String.toList_ofList]
    exact hbehind
  exact read_of_not_isIdle htrim (isIdle_cons hblank hprompt _)

/-- **Stream text is recovered exactly.**  Every text can be written in a target record, and however
it is written there, the record holds the text.  The records of the console and the log stream hold
what is between their quotes, as it stands. -/
theorem stream_text_recovered :
    (∀ text : List Char, ∃ glyphs : List Text.Glyph, glyphs.map Text.Glyph.char = text) ∧
    (∀ glyphs : List Text.Glyph,
      read ("@\"" ++ String.ofList (glyphs.flatMap Text.Glyph.written) ++ "\"") =
        .ok (some (.target (String.ofList (glyphs.map Text.Glyph.char))))) ∧
    (∀ body : String, read ("~\"" ++ body ++ "\"") = .ok (some (.console body))) ∧
    (∀ body : String, read ("&\"" ++ body ++ "\"") = .ok (some (.log body))) := by
  refine ⟨Text.exists_glyphs, fun glyphs => ?_, fun body => ?_, fun body => ?_⟩
  · have hline : "@\"" ++ String.ofList (glyphs.flatMap Text.Glyph.written) ++ "\"" =
        String.ofList ('@' :: '"' :: (glyphs.flatMap Text.Glyph.written ++ ['"'])) := by
      apply String.toList_injective
      simp
    rw [hline, read_quoted (by simp), readTrimmed, Text.unquote_quoted, Text.unescape_glyphs]
  · have hline : "~\"" ++ body ++ "\"" =
        String.ofList ('~' :: '"' :: (body.toList ++ ['"'])) := by
      apply String.toList_injective
      simp
    rw [hline, read_quoted (by simp), readTrimmed, Text.unquote_quoted, String.ofList_toList]
  · have hline : "&\"" ++ body ++ "\"" =
        String.ofList ('&' :: '"' :: (body.toList ++ ['"'])) := by
      apply String.toList_injective
      simp
    rw [hline, read_quoted (by simp), readTrimmed, Text.unquote_quoted, String.ofList_toList]

-- an octal escape in front of a digit, an escaped backslash in front of a letter, a quote as it is
example : (read "@\"\\0330\\\\n\"\\n\"").toOption =
    some (some (.target "\x1b0\\n\"\n")) := by
  decide +kernel

end Record

end DebugBridge
