import DebugBridge.Proofs.Record.RoundTrip
import Mathlib.Data.List.TakeWhile

/-!
# Lines that hold no record

A reader skips a line that is blank, a prompt, without a beginning that it knows, or against the
grammar.  These are all the lines that it skips.

## Main statements

* `skipped_iff`: a line is one of these exactly if reading it yields no record.
-/

namespace DebugBridge.Record

/-- The characters that records begin with. -/
def signs : List Char :=
  ['^', '*', '=', '~', '&', '@']

/-- A line that holds no record. -/
inductive Skipped (line : String) : Prop
  | blank (hline : ∀ c ∈ line.toList, Text.isBlank c = true)
  | prompt {before behind : List Char} (hline : line.toList = before ++ "(gdb)".toList ++ behind)
      (hbefore : ∀ c ∈ before, Text.isBlank c = true)
      (hbehind : ∀ c ∈ behind, Text.isBlank c = true)
  /-- the first character that is not white space begins no record -/
  | unsigned {before behind : List Char} {c : Char} (hline : line.toList = before ++ c :: behind)
      (hbefore : ∀ c ∈ before, Text.isBlank c = true) (hblank : Text.isBlank c = false)
      (hsign : c ∉ signs)
  | malformed {failure : ParseFailure} (hread : read line = .error failure)

theorem isBlank_of_isLineEnd {c : Char} (h : Text.isLineEnd c = true) : Text.isBlank c = true := by
  obtain rfl | rfl := by simpa [Text.isLineEnd] using h
  · rfl
  · rfl

theorem isLineEnd_of_not_isBlank {c : Char} (h : Text.isBlank c = false) :
    Text.isLineEnd c = false := by
  cases hend : Text.isLineEnd c with
  | false => rfl
  | true => exact absurd (isBlank_of_isLineEnd hend) (by simp [h])

/-- White space in front of a line is not looked at. -/
theorem trimLine_of_not_isBlank {before behind : List Char} {c : Char}
    (hbefore : ∀ c ∈ before, Text.isBlank c = true) (hblank : Text.isBlank c = false) :
    trimLine (before ++ c :: behind) = c :: Text.dropTrailing Text.isLineEnd behind := by
  rw [trimLine, List.dropWhile_append_of_pos hbefore, List.dropWhile_cons_of_neg (by simp [hblank]),
    Text.dropTrailing_cons (isLineEnd_of_not_isBlank hblank)]

theorem read_of_not_isIdle {line : String} {trimmed : List Char}
    (htrim : trimLine line.toList = trimmed) (hidle : isIdle trimmed = false) :
    read line = readTrimmed trimmed := by
  unfold read
  simp only [htrim, hidle, Bool.false_eq_true, if_false]

theorem read_of_isIdle {line : String} (hidle : isIdle (trimLine line.toList) = true) :
    read line = .ok none :=
  if_pos hidle

theorem readTrimmed_of_not_mem_signs {c : Char} (h : c ∉ signs) (text : List Char) :
    readTrimmed (c :: text) = .ok none := by
  unfold readTrimmed
  split
  case h_7 => rfl
  all_goals
    rename_i heq
    obtain ⟨rfl, -⟩ := List.cons.inj heq
    exact absurd (by decide) h

/-- A line that begins with no sign holds no record. -/
theorem read_of_unsigned {line : String} {before behind : List Char} {c : Char}
    (hline : line.toList = before ++ c :: behind) (hbefore : ∀ c ∈ before, Text.isBlank c = true)
    (hblank : Text.isBlank c = false) (hsign : c ∉ signs) : read line = .ok none := by
  have htrim : trimLine line.toList = c :: Text.dropTrailing Text.isLineEnd behind := by
    rw [hline, trimLine_of_not_isBlank hbefore hblank]
  cases hidle : isIdle (c :: Text.dropTrailing Text.isLineEnd behind) with
  | true => exact read_of_isIdle (htrim ▸ hidle)
  | false => rw [read_of_not_isIdle htrim hidle, readTrimmed_of_not_mem_signs hsign]

theorem Skipped.read_ne {line : String} (h : Skipped line) (record : Record) :
    read line ≠ .ok (some record) := by
  cases h with
  | blank hline =>
      have hidle : isIdle (trimLine line.toList) = true := by
        rw [trimLine, List.dropWhile_eq_nil_iff.mpr hline]
        rfl
      simp [read_of_isIdle hidle]
  | @prompt before behind hline hbefore hbehind =>
      have hline : line.toList = before ++ '(' :: ("gdb)".toList ++ behind) := by
        simpa using hline
      simp [read_of_unsigned hline hbefore (by decide) (by decide)]
  | unsigned hline hbefore hblank hsign => simp [read_of_unsigned hline hbefore hblank hsign]
  | malformed hread => simp [hread]

/-- What begins with a sign is read as a record, or fails. -/
theorem readTrimmed_of_mem_signs {c : Char} (h : c ∈ signs) (text : List Char) :
    readTrimmed (c :: text) ≠ .ok none := by
  simp only [signs, List.mem_cons, List.not_mem_nil, or_false] at h
  rcases h with rfl | rfl | rfl | rfl | rfl | rfl
  · show (readResult ('^' :: text) text).map (some ∘ result) ≠ _
    cases readResult ('^' :: text) text <;> simp [Except.map]
  · show (readAsync ('*' :: text) text).map (some ∘ exec) ≠ _
    cases readAsync ('*' :: text) text <;> simp [Except.map]
  · show (readAsync ('=' :: text) text).map (some ∘ notify) ≠ _
    cases readAsync ('=' :: text) text <;> simp [Except.map]
  all_goals simp [readTrimmed]

/-- A line is skipped exactly if it holds no record. -/
theorem skipped_iff {line : String} :
    Skipped line ↔ ∀ record, read line ≠ .ok (some record) := by
  refine ⟨Skipped.read_ne, fun hnone => ?_⟩
  cases hread : read line with
  | error failure => exact .malformed hread
  | ok record? =>
      cases record? with
      | some record => exact absurd hread (hnone record)
      | none =>
          cases hrest : line.toList.dropWhile Text.isBlank with
          | nil => exact .blank (List.dropWhile_eq_nil_iff.mp hrest)
          | cons c behind =>
              have hline : line.toList = line.toList.takeWhile Text.isBlank ++ c :: behind := by
                rw [← hrest, List.takeWhile_append_dropWhile]
              have hbefore : ∀ c ∈ line.toList.takeWhile Text.isBlank, Text.isBlank c = true :=
                fun _ hmem => List.mem_takeWhile_imp hmem
              have hblank : Text.isBlank c = false := by
                have hhead := List.head?_dropWhile_not Text.isBlank line.toList
                rw [hrest] at hhead
                simpa using hhead
              refine .unsigned hline hbefore hblank fun hsign => ?_
              have htrim : trimLine line.toList = c :: Text.dropTrailing Text.isLineEnd behind := by
                rw [hline, trimLine_of_not_isBlank hbefore hblank]
              have hprompt : c ≠ '(' := by
                rintro rfl
                revert hsign
                decide
              rw [read_of_not_isIdle htrim (isIdle_cons hblank hprompt _)] at hread
              exact readTrimmed_of_mem_signs hsign _ hread

end DebugBridge.Record
