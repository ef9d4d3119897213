import DebugBridge.Text.Numeral
import Mathlib.Data.List.TakeWhile

/-!
# Decimal numerals

The text of a natural number consists of its decimal digits, without a zero in front, and is read
back as the number.

## Main statements

* `readBelow_toString`: a number below a bound is read back.
* `append_colon_toString_inj`: behind the last colon of a text, a number can be told from the rest.
-/

namespace DebugBridge.Text

theorem toList_toString (n : Nat) : (toString n).toList = Nat.toDigits 10 n := by
  rw [Nat.toString_eq_repr, Nat.toList_repr]

theorem isDigit_of_mem_toDigits {n : Nat} {c : Char} (hc : c ∈ Nat.toDigits 10 n) :
    c.isDigit = true :=
  Nat.isDigit_of_mem_toDigits (by omega) (by omega) hc

theorem not_mem_toString {c : Char} (hc : c.isDigit = false) (n : Nat) :
    c ∉ (toString n).toList := by
  rw [toList_toString]
  intro hmem
  simp [isDigit_of_mem_toDigits hmem] at hc

theorem ofDigits_toDigits (n : Nat) : ofDigits (Nat.toDigits 10 n) = n :=
  Nat.ofDigitChars_toDigits (by omega) (by omega)

/-- Only zero has a zero in front. -/
theorem head?_toDigits_ne {n : Nat} (hn : 0 < n) : (Nat.toDigits 10 n).head? ≠ some '0' := by
  induction n using Nat.strongRecOn with
  | ind n ih =>
      by_cases hsmall : n < 10
      · rw [Nat.toDigits_of_lt_base hsmall, List.head?_cons, ne_eq, Option.some.injEq,
          Nat.digitChar_eq_zero]
        omega
      · have hhigher := ih (n / 10) (by omega) (by omega)
        rw [Nat.toDigits_of_base_le (by omega) (by omega), List.head?_append]
        cases hdigits : Nat.toDigits 10 (n / 10) with
        | nil => exact absurd hdigits Nat.toDigits_ne_nil
        | cons digit others => simpa [hdigits] using hhigher

theorem dropPlus_toDigits (n : Nat) : dropPlus (Nat.toDigits 10 n) = Nat.toDigits 10 n := by
  unfold dropPlus
  split
  · next rest heq =>
      have hplus : Char.isDigit '+' = true := isDigit_of_mem_toDigits (heq ▸ List.mem_cons_self)
      exact absurd hplus (by decide)
  · rfl

/-- A number below a bound is read back from its text. -/
theorem readBelow_toString {bound n : Nat} (h : n < bound) :
    readBelow bound (toString n) = some n := by
  have hempty : (Nat.toDigits 10 n).isEmpty = false := by
    rw [List.isEmpty_eq_false_iff]
    exact Nat.toDigits_ne_nil
  have hdigits : (Nat.toDigits 10 n).all Char.isDigit = true :=
    List.all_eq_true.mpr fun c => isDigit_of_mem_toDigits
  unfold readBelow
  simp only [toList_toString, dropPlus_toDigits, hempty, hdigits, ofDigits_toDigits, h,
    Bool.not_true, Bool.or_self, Bool.false_eq_true, if_false, if_true]

theorem toString_inj {m n : Nat} (h : toString m = toString n) : m = n := by
  calc
    m = ofDigits (toString m).toList := by rw [toList_toString, ofDigits_toDigits]
    _ = ofDigits (toString n).toList := by rw [h]
    _ = n := by rw [toList_toString, ofDigits_toDigits]

/-- The number behind the last colon of a text is determined by the text, and so is what stands in
front of the colon. -/
theorem append_colon_toString_inj {first second : List Char} {m n : Nat}
    (h : first ++ ':' :: (toString m).toList = second ++ ':' :: (toString n).toList) :
    first = second ∧ m = n := by
  -- seen from behind, the digits end at the first colon
  have hdigits (front : List Char) (k : Nat) :
      (front ++ ':' :: (toString k).toList).reverse.takeWhile (· != ':') =
        (toString k).toList.reverse := by
    have hfree : ∀ c ∈ (toString k).toList.reverse, (c != ':') = true := by
      intro c hc
      rw [List.mem_reverse] at hc
      rw [bne_iff_ne]
      rintro rfl
      exact not_mem_toString rfl k hc
    rw [List.reverse_append, List.reverse_cons, List.append_assoc, List.singleton_append,
      List.takeWhile_append_of_pos hfree, List.takeWhile_cons_of_neg (by simp), List.append_nil]
  have hreversed : (toString m).toList.reverse = (toString n).toList.reverse := by
    rw [← hdigits first m, h, hdigits second n]
  have hnumber : m = n :=
    toString_inj (String.toList_injective (List.reverse_inj.mp hreversed))
  subst hnumber
  exact ⟨List.append_cancel_right h, rfl⟩

end DebugBridge.Text
