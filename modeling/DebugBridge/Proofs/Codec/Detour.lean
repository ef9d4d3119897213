import DebugBridge.Codec.Outcome
import DebugBridge.Proofs.Json.Normal

/-!
# Outcomes in normal form

A bridge looks at the outcome of an insertion after a detour: the outcome is written as JSON,
brought into normal form, and decoded again.  The entries of its tuples are sorted on the way, but
nothing is lost that a decoder asks for.

## Main statements

* `Outcome.exists_decoder_normal`: an outcome always comes back, with its status.
-/

namespace DebugBridge

namespace Value

theorem isSome_entriesOfJson? (entries : List (String × Json)) (found : Entries)
    (h : ∀ pair ∈ entries, (ofJson? pair.2).isSome = true) :
    (entriesOfJson? found entries).isSome = true := by
  induction entries generalizing found with
  | nil => rfl
  | cons first rest ih =>
      obtain ⟨name, json⟩ := first
      rw [List.forall_mem_cons] at h
      obtain ⟨value, hvalue⟩ := Option.isSome_iff_exists.mp h.1
      simpa [entriesOfJson?, hvalue] using ih _ h.2

mutual

theorem isSome_ofJson?_normal (value : Value) : (ofJson? value.toJson.normal).isSome = true := by
  cases value with
  | text content => rfl
  | list items =>
      simpa [toJson, Json.normal, ofJson?] using isSome_itemsOfJson?_normal items
  | tuple entries =>
      have hentries :=
        isSome_entriesOfJson? (Json.normalEntries [] (entriesToJson entries)) [] ?_
      · simpa [toJson, Json.normal, ofJson?] using hentries
      · intro pair hpair
        obtain ⟨entry, hentry, rfl⟩ := Json.mem_normalEntries hpair
        exact isSome_ofJson?_of_mem entries hentry

theorem isSome_itemsOfJson?_normal (items : List Value) :
    (itemsOfJson? (Json.normalItems (itemsToJson items))).isSome = true := by
  cases items with
  | nil => rfl
  | cons item rest =>
      obtain ⟨value, hvalue⟩ := Option.isSome_iff_exists.mp (isSome_ofJson?_normal item)
      obtain ⟨values, hvalues⟩ := Option.isSome_iff_exists.mp (isSome_itemsOfJson?_normal rest)
      simp [itemsToJson, Json.normalItems, itemsOfJson?, hvalue, hvalues]

theorem isSome_ofJson?_of_mem (entries : List (String × Value)) {entry : String × Json}
    (hentry : entry ∈ entriesToJson entries) : (ofJson? entry.2.normal).isSome = true := by
  cases entries with
  | nil => cases hentry
  | cons first rest =>
      obtain ⟨name, value⟩ := first
      rcases List.mem_cons.mp hentry with rfl | hrest
      · exact isSome_ofJson?_normal value
      · exact isSome_ofJson?_of_mem rest hrest

end

theorem exists_decoder_normal (value : Value) :
    ∃ decoded, Value.decoder value.toJson.normal = .ok decoded := by
  obtain ⟨decoded, h⟩ := Option.isSome_iff_exists.mp (isSome_ofJson?_normal value)
  exact ⟨decoded, by rw [decoder, h]⟩

end Value

namespace Outcome

/-- The JSON form of an outcome decodes in normal form, to one with the same status. -/
theorem exists_decoder_normal (outcome : Outcome) :
    ∃ decoded, Outcome.decoder outcome.toJson.normal = .ok decoded ∧
      decoded.status = outcome.status := by
  obtain ⟨status, raw, payload⟩ := outcome
  cases payload with
  | none => cases status <;> exact ⟨_, rfl, rfl⟩
  | some value =>
      obtain ⟨decoded, h⟩ := value.exists_decoder_normal
      have hoptional : Json.Decoder.optional Value.decoder value.toJson.normal =
          .ok (some decoded) := by
        cases value <;> exact congrArg (Except.map some) h
      refine ⟨⟨status, raw, some decoded⟩, ?_, rfl⟩
      have hrun : Outcome.decoder (toJson ⟨status, raw, some value⟩).normal =
          ((Json.Decoder.optional Value.decoder value.toJson.normal).map (fun _ => ()) >>=
            fun _ => .ok ()) >>= fun _ =>
          Json.Decoder.optional Value.decoder value.toJson.normal >>= fun payload =>
          .ok ⟨status, raw, payload⟩ := by
        cases status <;> rfl
      rw [hrun, hoptional]
      rfl

end Outcome

end DebugBridge
