import DebugBridge.Json.Decode
import DebugBridge.Proofs.Except
import Mathlib.Data.List.Nodup

/-!
# Decoding structures from objects

A structure is decoded from an object by the names of its fields.  `Record.Reads` says that a
structure finds its fields among some entries, whatever their order and whatever else is there; it
is put together from the fields as the structure is.  If no name is there twice, the object decodes.

## Main statements

* `Record.Reads.decoder_eq`: an object with all the fields decodes.
* `Record.Gives.of_decoder`: what holds of the fields, however they come, holds of the structure.
-/

namespace DebugBridge

/-! ## Looking names up -/

theorem lookup_cons_ne {β : Type} {name stored : String} (h : name ≠ stored) (value : β)
    (entries : List (String × β)) :
    List.lookup name ((stored, value) :: entries) = entries.lookup name := by
  rw [List.lookup_cons, beq_eq_false_iff_ne.mpr h]

/-- Where no name is there twice, the value of each is found. -/
theorem lookup_eq_some_iff_mem {β : Type} {entries : List (String × β)}
    (hnodup : (entries.map Prod.fst).Nodup) {name : String} {value : β} :
    entries.lookup name = some value ↔ (name, value) ∈ entries := by
  induction entries with
  | nil => simp
  | cons entry rest ih =>
      obtain ⟨stored, old⟩ := entry
      rw [List.map_cons, List.nodup_cons] at hnodup
      by_cases h : name = stored
      · subst h
        have hrest : (name, value) ∉ rest :=
          fun hmem => hnodup.1 (List.mem_map.mpr ⟨_, hmem, rfl⟩)
        simp [hrest, eq_comm]
      · simp [lookup_cons_ne h, h, ih hnodup.2]

/-- What is found does not depend on the order of the entries. -/
theorem lookup_of_perm {β : Type} {entries others : List (String × β)} (h : entries.Perm others)
    (hnodup : (entries.map Prod.fst).Nodup) (name : String) :
    entries.lookup name = others.lookup name := by
  have hnodup' : (others.map Prod.fst).Nodup := (h.map Prod.fst).nodup_iff.mp hnodup
  ext value
  rw [lookup_eq_some_iff_mem hnodup, lookup_eq_some_iff_mem hnodup', h.mem_iff]

namespace Json

variable {entries : List (String × Json)} {name : String} {json : Json}

theorem find?_eq_lookup (name : String) (entries : List (String × Json)) :
    find? name entries = entries.lookup name := by
  induction entries with
  | nil => rfl
  | cons entry rest ih =>
      obtain ⟨stored, value⟩ := entry
      by_cases h : name = stored
      · simp [find?, h]
      · rw [find?, if_neg (Ne.symm h), lookup_cons_ne h, ih]

/-! ## Structures -/

namespace Record

variable {α β : Type}

/-- A structure finds its fields among the entries of an object, with these values. -/
structure Reads (record : Record α) (entries : List (String × Json)) (a : α) : Prop where
  build : ∀ expected start, record.build expected start (.byName entries) = .ok a
  check : ∀ field ∈ record.fields, ∀ json ∈ find? field.name entries, field.check json = .ok ()

theorem reads_pure (a : α) : (pure a : Record α).Reads entries a where
  build _ _ := rfl
  check _ hfield := nomatch hfield

theorem Reads.seq {f : Record (α → β)} {x : Record α} {g : α → β} {a : α}
    (hf : f.Reads entries g) (hx : x.Reads entries a) : (f <*> x).Reads entries (g a) where
  build expected start := by
    show (do
      let g ← f.build expected start (.byName entries)
      let a ← x.build expected (start + f.fields.length) (.byName entries)
      return g a) = _
    rw [hf.build, hx.build]
    rfl
  check field hfield := by
    rcases List.mem_append.mp hfield with hfield | hfield
    · exact hf.check field hfield
    · exact hx.check field hfield

theorem Reads.map {x : Record α} {a : α} (g : α → β) (hx : x.Reads entries a) :
    (g <$> x).Reads entries (g a) :=
  (reads_pure g).seq hx

variable {decoder : Decoder α} {a : α}

/-- A field that is there. -/
theorem reads_field {byName byPosition : Option α} (hfind : find? name entries = some json)
    (hdecoder : decoder json = .ok a) :
    (field name decoder byName byPosition).Reads entries a where
  build _ _ := by
    simp only [field, hfind, hdecoder]
  check checked hchecked found hfound := by
    obtain rfl := List.mem_singleton.mp hchecked
    obtain rfl : json = found := Option.some.inj (hfind.symm.trans hfound)
    show (decoder json).map _ = _
    rw [hdecoder]
    rfl

/-- A field that is missing holds its default. -/
theorem reads_default {byPosition : Option α} (hfind : find? name entries = none) :
    (field name decoder (some a) byPosition).Reads entries a where
  build _ _ := by
    simp only [field, hfind]
  check checked hchecked found hfound := by
    obtain rfl := List.mem_singleton.mp hchecked
    cases hfind.symm.trans hfound

/-- No entry fails its check, and none is there twice. -/
theorem checkEntries_eq_ok {checks : List FieldCheck} {seen : List String}
    (hnodup : (entries.map Prod.fst).Nodup) (hseen : ∀ entry ∈ entries, entry.1 ∉ seen)
    (hcheck : ∀ field ∈ checks, ∀ entry ∈ entries, entry.1 = field.name →
      field.check entry.2 = .ok ()) :
    checkEntries checks seen entries = .ok () := by
  induction entries generalizing seen with
  | nil => rfl
  | cons entry rest ih =>
      obtain ⟨name, json⟩ := entry
      rw [List.map_cons, List.nodup_cons] at hnodup
      rw [List.forall_mem_cons] at hseen
      have hrest : ∀ field ∈ checks, ∀ entry ∈ rest, entry.1 = field.name →
          field.check entry.2 = .ok () :=
        fun field hfield entry hentry => hcheck field hfield entry (List.mem_cons_of_mem _ hentry)
      rw [checkEntries]
      cases hfound : checks.find? (·.name == name) with
      | none => exact ih hnodup.2 hseen.2 hrest
      | some field =>
          have hname : name = field.name := by
            have := List.find?_some hfound
            simpa using (beq_iff_eq.mp this).symm
          have hfield := hcheck field (List.mem_of_find?_eq_some hfound) (name, json)
            List.mem_cons_self hname
          have hnew : ∀ entry ∈ rest, entry.1 ∉ name :: seen := by
            intro entry hentry hmem
            rcases List.mem_cons.mp hmem with heq | hmem
            · exact hnodup.1 (List.mem_map.mpr ⟨entry, hentry, heq⟩)
            · exact hseen.2 entry hentry hmem
          simp only [List.contains_iff_mem, hseen.1, if_false, hfield]
          exact ih hnodup.2 hnew hrest

variable {record : Record α}

/-- An object with the fields of a structure decodes, if no name is there twice. -/
theorem Reads.ofEntries_eq (h : record.Reads entries a) (hnodup : (entries.map Prod.fst).Nodup)
    (type : String) : record.ofEntries type entries = .ok a := by
  have hcheck : checkEntries record.fields [] entries = .ok () := by
    apply checkEntries_eq_ok hnodup (fun _ _ => List.not_mem_nil)
    intro field hfield entry hentry hname
    apply h.check field hfield entry.2
    rw [find?_eq_lookup]
    exact (lookup_eq_some_iff_mem hnodup).mpr (hname ▸ hentry)
  rw [ofEntries, hcheck]
  exact h.build _ 0

theorem Reads.decoder_eq (h : record.Reads entries a) (hnodup : (entries.map Prod.fst).Nodup)
    (type : String) : record.decoder type (.object entries) = .ok a :=
  h.ofEntries_eq hnodup _

/-! ## What is decoded -/

/-- Something holds of whatever a structure is put together to. -/
def Gives (record : Record α) (holds : α → Prop) : Prop :=
  ∀ expected start fields a, record.build expected start fields = .ok a → holds a

theorem gives_any (record : Record α) : record.Gives fun _ => True :=
  fun _ _ _ _ _ => trivial

theorem Gives.seq {f : Record (α → β)} {x : Record α} {argument : α → Prop} {holds : β → Prop}
    (hf : f.Gives fun g => ∀ a, argument a → holds (g a)) (hx : x.Gives argument) :
    (f <*> x).Gives holds := by
  intro expected start fields b hbuild
  obtain ⟨g, hg, hrest⟩ := bind_eq_ok.mp hbuild
  obtain ⟨a, ha, hvalue⟩ := bind_eq_ok.mp hrest
  cases hvalue
  exact hf expected start fields g hg a (hx expected _ fields a ha)

theorem Gives.map {x : Record α} {argument : α → Prop} {holds : β → Prop} {g : α → β}
    (hg : ∀ a, argument a → holds (g a)) (hx : x.Gives argument) : (g <$> x).Gives holds := by
  refine Gives.seq (f := pure g) ?_ hx
  rintro _ _ _ _ ⟨⟩
  exact hg

theorem gives_field {byName byPosition : Option α} {holds : α → Prop}
    (hdecoder : ∀ json a, decoder json = .ok a → holds a) (hbyName : ∀ a ∈ byName, holds a)
    (hbyPosition : ∀ a ∈ byPosition, holds a) :
    (field name decoder byName byPosition).Gives holds := by
  intro expected start fields a hbuild
  cases fields with
  | byName entries =>
      simp only [field] at hbuild
      split at hbuild
      · exact hdecoder _ a hbuild
      · cases hbuild
        exact hbyName a rfl
      · cases hbuild
  | byPosition items =>
      simp only [field] at hbuild
      split at hbuild
      · exact hdecoder _ a hbuild
      · cases hbuild
        exact hbyPosition a rfl
      · cases hbuild

/-- What holds of all that a structure is put together to holds of what is decoded. -/
theorem Gives.of_decoder {holds : α → Prop} (h : record.Gives holds) {type : String}
    (hdecoder : record.decoder type json = .ok a) : holds a := by
  unfold decoder at hdecoder
  split at hdecoder
  · obtain ⟨_, -, hbuild⟩ := bind_eq_ok.mp hdecoder
    exact h _ _ _ a hbuild
  · obtain ⟨value, hbuild, hrest⟩ := bind_eq_ok.mp hdecoder
    split at hrest
    · cases hrest
    · cases hrest
      exact h _ _ _ a hbuild
  · cases hdecoder

end Record

/-! ## Optional values -/

theorem optional_eq_ok {α : Type} {decoder : Decoder α} {a : α} (hnull : json ≠ .null)
    (hdecoder : decoder json = .ok a) : Decoder.optional decoder json = .ok (some a) := by
  unfold Decoder.optional
  split
  · exact absurd rfl hnull
  · rw [hdecoder]
    rfl

/-- An optional value is decoded, if it is one that `null` does not stand for. -/
theorem optional_option {α : Type} {decoder : Decoder α} {encode : α → Json} {value? : Option α}
    (h : ∀ a ∈ value?, encode a ≠ .null ∧ decoder (encode a) = .ok a) :
    Decoder.optional decoder (option encode value?) = .ok value? := by
  cases value? with
  | none => rfl
  | some a => exact optional_eq_ok (h a rfl).1 (h a rfl).2

end Json

end DebugBridge
