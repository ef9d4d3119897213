import DebugBridge.Proofs.Record.RoundTrip
import DebugBridge.Proofs.Text.Decimal

/-!
# Locations as quoted texts

A command names the place of a breakpoint by one argument in quotes: the path with forward slashes,
a colon and the line.  The path is put between the quotes as it is.  Its backslashes have become
slashes, so nothing in the argument is escaped; a quote in the path therefore closes the argument
early, and what comes behind it is left over.

## Main statements

* `quote_ends_location`: a path with a quote.
* `location_read_back`: which locations are read back as they are meant, and that the place can
  always be told from the argument.
-/

namespace DebugBridge

namespace Breakpoint

/-- The path of a breakpoint with forward slashes. -/
def slashed (breakpoint : Breakpoint) : List Char :=
  breakpoint.file.toList.map fun c => if c = '\\' then '/' else c

/-- The place of a breakpoint in words: the path with forward slashes, a colon, and the line. -/
def place (breakpoint : Breakpoint) : String :=
  String.ofList breakpoint.slashed ++ ":" ++ toString breakpoint.line

theorem toList_place (breakpoint : Breakpoint) :
    breakpoint.place.toList = breakpoint.slashed ++ ':' :: (toString breakpoint.line).toList := by
  simp [place]

/-- The argument is the place in quotes. -/
theorem toList_locationArgument (breakpoint : Breakpoint) :
    breakpoint.locationArgument.toList = '"' :: (breakpoint.place.toList ++ ['"']) := by
  simp [locationArgument, toList_place, slashed]

theorem quote_mem_slashed {breakpoint : Breakpoint} :
    '"' ∈ breakpoint.slashed ↔ '"' ∈ breakpoint.file.toList := by
  rw [slashed, List.mem_map]
  constructor
  · rintro ⟨c, hc, hquote⟩
    split at hquote
    · exact absurd hquote (by decide)
    · rwa [← hquote]
  · intro hquote
    exact ⟨'"', hquote, by decide⟩

theorem backslash_not_mem_slashed (breakpoint : Breakpoint) : '\\' ∉ breakpoint.slashed := by
  rw [slashed, List.mem_map]
  rintro ⟨c, -, hbackslash⟩
  split at hbackslash
  · exact absurd hbackslash (by decide)
  · contradiction

/-- The quotes of a place are those of its path. -/
theorem quote_mem_place {breakpoint : Breakpoint} :
    '"' ∈ breakpoint.place.toList ↔ '"' ∈ breakpoint.file.toList := by
  have hline : '"' ∉ (toString breakpoint.line).toList := Text.not_mem_toString rfl _
  rw [toList_place, List.mem_append, List.mem_cons, quote_mem_slashed]
  exact ⟨fun h => h.resolve_right (by simpa using hline), .inl⟩

theorem backslash_not_mem_place (breakpoint : Breakpoint) :
    '\\' ∉ breakpoint.place.toList := by
  have hline : '\\' ∉ (toString breakpoint.line).toList := Text.not_mem_toString rfl _
  rw [toList_place, List.mem_append, List.mem_cons, not_or, not_or]
  exact ⟨breakpoint.backslash_not_mem_slashed, by decide, hline⟩

/-- A place is determined by its text. -/
theorem place_inj {first second : Breakpoint} :
    first.place = second.place ↔ first.line = second.line ∧ first.slashed = second.slashed := by
  constructor
  · intro h
    have htext := congrArg String.toList h
    rw [toList_place, toList_place] at htext
    exact (Text.append_colon_toString_inj htext).symm
  · rintro ⟨hline, hslashed⟩
    rw [place, place, hline, hslashed]

theorem locationArgument_inj {first second : Breakpoint} :
    first.locationArgument = second.locationArgument ↔ first.place = second.place := by
  rw [← String.toList_inj, toList_locationArgument, toList_locationArgument, List.cons.injEq,
    and_iff_right rfl, List.append_left_inj, String.toList_inj]

end Breakpoint

namespace Value

open Grammar

theorem readValue_quoted {content : List Char} (hquote : '"' ∉ content)
    (hbackslash : '\\' ∉ content) :
    readValue ('"' :: (content ++ ['"'])) = .ok (text (String.ofList content)) := by
  obtain ⟨body, rfl⟩ := exists_body_of_isEscaped (isEscaped_of_plain hquote hbackslash)
  exact readValue_eq_ok_iff.mpr ⟨.quoted body, Tree.text_quoted body, by rw [Tree.value]⟩

/-- The first quote ends the text, and what is behind it is too much. -/
theorem readValue_of_quote {before behind : List Char} (hquote : '"' ∉ before)
    (hbackslash : '\\' ∉ before) (hbehind : behind ≠ []) :
    readValue ('"' :: (before ++ '"' :: behind)) = .error ⟨.trailingInput, behind⟩ := by
  obtain ⟨body, rfl⟩ := exists_body_of_isEscaped (isEscaped_of_plain hquote hbackslash)
  rw [readValue, readValueWithin_quote, readText_bodyText]
  cases behind with
  | nil => exact absurd rfl hbehind
  | cons c rest => rfl

/-- A location whose path holds a quote is no quoted text, whatever it is to be read as. -/
theorem quote_ends_location :
    readValue (Breakpoint.locationArgument ⟨"a\"b", 7⟩).toList =
      .error ⟨.trailingInput, "b:7\"".toList⟩ ∧
    ¬ ∀ breakpoint : Breakpoint,
      readValue breakpoint.locationArgument.toList = .ok (text breakpoint.place) := by
  have hread : readValue (Breakpoint.locationArgument ⟨"a\"b", 7⟩).toList =
      .error ⟨.trailingInput, "b:7\"".toList⟩ := by rfl
  refine ⟨hread, fun hclaim => ?_⟩
  rw [hclaim] at hread
  cases hread

/-- **A location is one quoted text unless its path holds a quote.**  The argument for a breakpoint
is read as a value exactly if there is no quote in the path, and then it is the path with forward
slashes, a colon and the line; with a quote in the path, text is left over.  In any case two
breakpoints have the same argument only if their lines are equal and their paths are, up to the
slashes. -/
theorem location_read_back (breakpoint : Breakpoint) :
    (readValue breakpoint.locationArgument.toList = .ok (text breakpoint.place) ↔
      '"' ∉ breakpoint.file.toList) ∧
    ((∃ unread, readValue breakpoint.locationArgument.toList = .error ⟨.trailingInput, unread⟩) ↔
      '"' ∈ breakpoint.file.toList) ∧
    (∀ other : Breakpoint, breakpoint.locationArgument = other.locationArgument ↔
      breakpoint.line = other.line ∧ breakpoint.slashed = other.slashed) := by
  have hplain (hquote : '"' ∉ breakpoint.file.toList) :
      readValue breakpoint.locationArgument.toList = .ok (text breakpoint.place) := by
    rw [Breakpoint.toList_locationArgument, readValue_quoted
      (mt Breakpoint.quote_mem_place.mp hquote) breakpoint.backslash_not_mem_place,
      String.ofList_toList]
  have hquoted (hquote : '"' ∈ breakpoint.file.toList) :
      ∃ unread, readValue breakpoint.locationArgument.toList = .error ⟨.trailingInput, unread⟩ := by
    obtain ⟨before, behind, hplace, hfirst⟩ :=
      List.eq_append_cons_of_mem (Breakpoint.quote_mem_place.mpr hquote)
    have hbackslash : '\\' ∉ before := by
      have hnone := breakpoint.backslash_not_mem_place
      rw [hplace, List.mem_append, not_or] at hnone
      exact hnone.1
    refine ⟨behind ++ ['"'], ?_⟩
    rw [Breakpoint.toList_locationArgument, hplace, List.append_assoc, List.cons_append]
    exact readValue_of_quote hfirst hbackslash (by simp)
  refine ⟨⟨fun hread hquote => ?_, hplain⟩, ⟨fun hread => ?_, hquoted⟩, fun other => ?_⟩
  · obtain ⟨unread, herror⟩ := hquoted hquote
    simp [hread] at herror
  · by_contra hquote
    obtain ⟨unread, herror⟩ := hread
    simp [hplain hquote] at herror
  · rw [Breakpoint.locationArgument_inj, Breakpoint.place_inj]

end Value

end DebugBridge
