import DebugBridge.Proofs.Record.Failure
import DebugBridge.Proofs.Record.Streams
import Mathlib.Data.List.Basic

/-!
# Output that is escaped byte by byte

A debugger knows the output of its target as bytes.  It writes printable ASCII as it is, a quote or
a backslash behind a backslash, and any other byte by its three octal digits.  Each such escape is
read as the character whose code is the byte.  Nothing of the output is lost by that, but a
character beyond ASCII, which has several bytes, comes back as several characters.

## Strategy

`unescape_writtenByte` takes one byte off a line, whatever comes behind it.  Whether the text comes
back is then a matter of number: an encoding has as many bytes as the text has characters exactly if
all of them are ASCII (`utf8Length_eq_length_iff`).

## Main statements

* `umlaut_read_as_two`: a text that does not come back.
* `bytes_read_apart`: what comes back, and which texts do.
-/

namespace DebugBridge

namespace Text

/-! ## Bytes and characters -/

/-- The character whose code is a byte. -/
def ofByte (byte : UInt8) : Char :=
  Char.ofNat byte.toNat

theorem toNat_ofByte (byte : UInt8) : (ofByte byte).toNat = byte.toNat := by
  have hbyte := byte.toNat_lt
  rw [ofByte, Char.ofNat, dif_pos (.inl (by omega))]
  rfl

theorem ofByte_injective : Function.Injective ofByte := by
  intro first second h
  apply UInt8.toNat_inj.mp
  rw [← toNat_ofByte first, h, toNat_ofByte]

/-- The bytes of the UTF-8 encoding of a text. -/
def utf8Bytes (text : String) : List UInt8 :=
  text.toUTF8.data.toList

theorem utf8Bytes_eq (text : String) :
    utf8Bytes text = text.toList.flatMap String.utf8EncodeChar := by
  rw [utf8Bytes, String.toUTF8_eq_toByteArray, ← String.utf8Encode_toList, List.utf8Encode,
    List.toList_data_toByteArray]

theorem length_utf8Bytes (text : String) :
    (utf8Bytes text).length = utf8Length text.toList := by
  rw [utf8Bytes_eq]
  induction text.toList with
  | nil => rfl
  | cons c rest ih =>
      rw [List.flatMap_cons, List.length_append, String.length_utf8EncodeChar, ih, utf8Length_cons]

theorem utf8Size_eq_one_iff {c : Char} : c.utf8Size = 1 ↔ c.toNat < 128 := by
  rw [Char.utf8Size_eq_one_iff, UInt32.le_iff_toNat_le]
  exact Nat.lt_succ_iff.symm

theorem length_le_utf8Length (cs : List Char) : cs.length ≤ utf8Length cs := by
  induction cs with
  | nil => exact Nat.le_refl _
  | cons c rest ih =>
      have hsize := c.utf8Size_pos
      rw [List.length_cons, utf8Length_cons]
      omega

/-- An encoding has as many bytes as there are characters if and only if all of them are ASCII. -/
theorem utf8Length_eq_length_iff (cs : List Char) :
    utf8Length cs = cs.length ↔ ∀ c ∈ cs, c.toNat < 128 := by
  induction cs with
  | nil => simp
  | cons c rest ih =>
      have hsize := c.utf8Size_pos
      have hrest := length_le_utf8Length rest
      rw [List.forall_mem_cons, ← ih, ← utf8Size_eq_one_iff, utf8Length_cons, List.length_cons]
      omega

/-- An ASCII character is encoded by its code. -/
theorem map_ofByte_utf8EncodeChar {c : Char} (hc : c.toNat < 128) :
    (String.utf8EncodeChar c).map ofByte = [c] := by
  have hbyte : c.val.toUInt8.toNat = c.toNat := by
    rw [UInt32.toNat_toUInt8]
    exact Nat.mod_eq_of_lt (show c.toNat < 256 by omega)
  rw [String.utf8EncodeChar_eq_singleton (utf8Size_eq_one_iff.mpr hc), List.map_singleton, ofByte,
    hbyte, Char.ofNat_toNat]

/-- A text is its encoding byte by byte if and only if it is ASCII. -/
theorem map_ofByte_utf8Bytes_eq_iff (text : String) :
    (utf8Bytes text).map ofByte = text.toList ↔ ∀ c ∈ text.toList, c.toNat < 128 := by
  constructor
  -- a character of several bytes would make the encoding longer than the text
  · intro h
    have hlength := congrArg List.length h
    rw [List.length_map, length_utf8Bytes] at hlength
    exact (utf8Length_eq_length_iff _).mp hlength
  · intro hascii
    rw [utf8Bytes_eq, List.map_flatMap]
    calc
      text.toList.flatMap (fun c => (String.utf8EncodeChar c).map ofByte)
        = text.toList.flatMap (fun c => [c]) :=
          List.flatMap_congr fun c hc => map_ofByte_utf8EncodeChar (hascii c hc)
      _ = text.toList := List.flatMap_singleton' _

/-! ## Bytes as they are written -/

/-- A byte between the quotes of a record: a quote or a backslash behind a backslash, other
printable ASCII as it is, and any other byte by its three octal digits. -/
def writtenByte (byte : UInt8) : List Char :=
  if ofByte byte = '"' ∨ ofByte byte = '\\' then ['\\', ofByte byte]
  else if ' ' ≤ ofByte byte ∧ ofByte byte ≤ '~' then [ofByte byte]
  else ['\\', octalDigit (byte.toNat / 64), octalDigit (byte.toNat / 8 % 8),
    octalDigit (byte.toNat % 8)]

/-- However a byte is written, it is read as the character of its code. -/
theorem unescape_writtenByte (byte : UInt8) (rest : List Char) :
    unescape (writtenByte byte ++ rest) = ofByte byte :: unescape rest := by
  rw [writtenByte]
  split
  · next hescaped =>
      refine unescape_letter ?_ rest
      rcases hescaped with hquote | hbackslash
      · rw [hquote]; rfl
      · rw [hbackslash]; rfl
  · next hplain =>
      split
      · exact unescape_cons (not_or.mp hplain).2 rest
      · have hbyte := byte.toNat_lt
        exact unescape_digits (by omega) rest

theorem unescape_writtenBytes (bytes : List UInt8) :
    unescape (bytes.flatMap writtenByte) = bytes.map ofByte := by
  induction bytes with
  | nil => rfl
  | cons byte rest ih => rw [List.flatMap_cons, unescape_writtenByte, ih, List.map_cons]

end Text

namespace Record

/-- The line by which a debugger reports output of its target. -/
def outputLine (bytes : List UInt8) : String :=
  "@\"" ++ String.ofList (bytes.flatMap Text.writtenByte) ++ "\""

theorem read_outputLine (bytes : List UInt8) :
    read (outputLine bytes) = .ok (some (.target (String.ofList (bytes.map Text.ofByte)))) := by
  have hline : outputLine bytes =
      String.ofList ('@' :: '"' :: (bytes.flatMap Text.writtenByte ++ ['"'])) := by
    apply String.toList_injective
    simp [outputLine]
  rw [hline, read_quoted (by simp), readTrimmed, Text.unquote_quoted, Text.unescape_writtenBytes]

/-- The two bytes of a letter with an umlaut are read as two letters. -/
theorem umlaut_read_as_two :
    outputLine (Text.utf8Bytes "ö") = "@\"\\303\\266\"" ∧
    read "@\"\\303\\266\"" = .ok (some (.target "Ã¶")) ∧
    ¬ ∀ text : String, read (outputLine (Text.utf8Bytes text)) = .ok (some (.target text)) := by
  have hline : outputLine (Text.utf8Bytes "ö") = "@\"\\303\\266\"" := by decide +kernel
  have hread : read "@\"\\303\\266\"" = .ok (some (.target "Ã¶")) := by
    rw [← hline, read_outputLine]
    rfl
  refine ⟨hline, hread, fun hclaim => ?_⟩
  have hclaimed := hclaim "ö"
  rw [hline, hread] at hclaimed
  simp at hclaimed

/-- **Bytes are read apart.**  A target record holds the text whose encoding it carries exactly if
that text is ASCII.  For whatever the output of the target is, its record is read as one character
for each byte, the one whose code it is; so different output is never read as the same. -/
theorem bytes_read_apart (text : String) :
    (read (outputLine (Text.utf8Bytes text)) = .ok (some (.target text)) ↔
      ∀ c ∈ text.toList, c.toNat < 128) ∧
    (∀ bytes : List UInt8,
      read (outputLine bytes) = .ok (some (.target (String.ofList (bytes.map Text.ofByte))))) ∧
    (∀ bytes others : List UInt8,
      read (outputLine bytes) = read (outputLine others) ↔ bytes = others) := by
  refine ⟨?_, read_outputLine, fun bytes others => ?_⟩
  · rw [read_outputLine, ← Text.map_ofByte_utf8Bytes_eq_iff]
    simp only [Except.ok.injEq, Option.some.injEq, target.injEq]
    rw [← String.toList_inj, String.toList_ofList]
  · rw [read_outputLine, read_outputLine]
    simp only [Except.ok.injEq, Option.some.injEq, target.injEq]
    rw [← String.toList_inj, String.toList_ofList, String.toList_ofList]
    exact (List.map_injective_iff.mpr Text.ofByte_injective).eq_iff

end Record

end DebugBridge
