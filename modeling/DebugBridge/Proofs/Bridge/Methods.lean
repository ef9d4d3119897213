import DebugBridge.Bridge.Server
import DebugBridge.Proofs.Value.Reading

/-!
# What a line asks for

A line that spells a request names one of seventeen methods, or another one; seven of the methods take
parameters, which decode or do not.  All but two of the methods are about the session in place.

## Main statements

* `Request.reads`: a method is not known, or its parameters do not fit, or something is asked for.
* `Request.read?_eq_none_of_blank`: a line that is skipped spells no request.
-/

namespace DebugBridge

/-! ## Structures that make certain values -/

namespace Json.Record

variable {α β : Type} {record : Record α} {made : α → Prop}

/-- Every value that is built from fields is as stated. -/
def Makes (record : Record α) (made : α → Prop) : Prop :=
  ∀ expected start fields value, record.build expected start fields = .ok value → made value

theorem makes_map {change : α → β} {made : β → Prop} (h : ∀ value, made (change value)) :
    (change <$> record).Makes made := by
  intro expected start fields value hbuild
  obtain ⟨_, hchange, hvalue⟩ := bind_eq_ok.mp hbuild
  cases hchange
  obtain ⟨source, -, hvalue⟩ := bind_eq_ok.mp hvalue
  cases hvalue
  exact h source

theorem makes_seq {change : Record (α → β)} {made : β → Prop}
    (h : change.Makes fun function => ∀ value, made (function value)) :
    (change <*> record).Makes made := by
  intro expected start fields value hbuild
  obtain ⟨function, hfunction, hvalue⟩ := bind_eq_ok.mp hbuild
  obtain ⟨source, -, hvalue⟩ := bind_eq_ok.mp hvalue
  cases hvalue
  exact h _ _ _ function hfunction source

/-- What a structure is decoded to is as stated. -/
theorem Makes.of_decoder (h : record.Makes made) {name : String} {json : Json} {value : α}
    (hdecoder : record.decoder name json = .ok value) : made value := by
  cases json with
  | object entries =>
      obtain ⟨_, -, hbuild⟩ := bind_eq_ok.mp hdecoder
      exact h _ _ _ value hbuild
  | array items =>
      obtain ⟨built, hbuild, hvalue⟩ := bind_eq_ok.mp hdecoder
      split at hvalue <;> cases hvalue
      exact h _ _ _ value hbuild
  | _ => cases hdecoder

end Json.Record

namespace Bridge

/-! ## Methods -/

/-- The methods that are known. -/
def methods : List String :=
  ["session/start", "session/stop", "session/status", "exec/run", "exec/continue", "exec/next",
    "exec/step", "exec/finish", "exec/pause", "data/print", "data/evaluate", "break/insert",
    "break/remove", "gdb/settings", "gdb/command", "stack/frames", "stack/locals"]

/-- The methods that are not about the session in place. -/
def freeMethods : List String :=
  ["session/start", "session/status"]

/-- The method takes parameters, and they are missing or do not decode. -/
def Request.Misfits (request : Request) : Prop :=
  ∃ decoder, Ask.decoder? request.method = some decoder ∧
    ∀ params ask, request.params = some params → decoder params ≠ .ok ask

/-- Whether it takes a session in place to do what is asked for. -/
def Ask.NeedsSession : Ask → Prop
  | start _ | status => False
  | _ => True

theorem Ask.plain?_eq_some {method : String} {ask : Ask} (h : plain? method = some ask) :
    method ∈ methods ∧ decoder? method = none ∧ (ask.NeedsSession ↔ method ∉ freeMethods) := by
  unfold plain? at h
  split at h <;> cases h <;> refine ⟨by decide, rfl, ?_⟩ <;> simp [NeedsSession, freeMethods]

theorem Ask.decoder?_eq_some {method : String} {decoder : Json.Decoder Ask}
    (h : decoder? method = some decoder) :
    method ∈ methods ∧ plain? method = none ∧
      ∀ params ask, decoder params = .ok ask → (ask.NeedsSession ↔ method ∉ freeMethods) := by
  have hmakes {name other : String} {record : Json.Record Ask}
      (hrecord : record.Makes Ask.NeedsSession) (hother : other ∉ freeMethods) (params : Json)
      (ask : Ask) (hdecoder : record.decoder name params = .ok ask) :
      ask.NeedsSession ↔ other ∉ freeMethods :=
    iff_of_true (hrecord.of_decoder hdecoder) hother
  unfold decoder? at h
  split at h <;> cases h <;> refine ⟨by decide, rfl, ?_⟩
  · intro params ask hdecoder
    have hstart : (start <$> StartParams.record).Makes fun ask => ¬ ask.NeedsSession :=
      Json.Record.makes_map fun _ => id
    exact iff_of_false (hstart.of_decoder hdecoder) (by decide)
  · exact hmakes (Json.Record.makes_map fun _ => trivial) (by decide)
  · exact hmakes (Json.Record.makes_map fun _ => trivial) (by decide)
  · exact hmakes (Json.Record.makes_map fun _ => trivial) (by decide)
  · exact hmakes (Json.Record.makes_map fun _ => trivial) (by decide)
  · exact hmakes (Json.Record.makes_map fun _ => trivial) (by decide)
  · exact hmakes (Json.Record.makes_seq (Json.Record.makes_map fun _ _ => trivial)) (by decide)

/-- A method that is known takes parameters, or takes none. -/
theorem Ask.mem_methods_iff {method : String} :
    method ∈ methods ↔ (plain? method).isSome ∨ (decoder? method).isSome := by
  constructor
  · have hknown : ∀ method ∈ methods, (plain? method).isSome ∨ (decoder? method).isSome := by
      decide +kernel
    exact hknown method
  · rintro (hplain | hdecoder)
    · obtain ⟨ask, hask⟩ := Option.isSome_iff_exists.mp hplain
      exact (plain?_eq_some hask).1
    · obtain ⟨decoder, hsome⟩ := Option.isSome_iff_exists.mp hdecoder
      exact (decoder?_eq_some hsome).1

/-- What becomes of the method and the parameters of a request. -/
inductive Request.Reads (request : Request) : Except Refusal Ask → Prop
  | unknown (hmethod : request.method ∉ methods) :
      Reads request (.error (.unknownMethod request.method))
  | misfit (hmethod : request.method ∈ methods) (hmisfits : request.Misfits) (reason : String) :
      Reads request (.error (.badParams reason))
  | fits {ask : Ask} (hmethod : request.method ∈ methods) (hfits : ¬ request.Misfits)
      (hneeds : ask.NeedsSession ↔ request.method ∉ freeMethods) : Reads request (.ok ask)

theorem Request.reads (request : Request) :
    request.Reads (Ask.read request.method request.params) := by
  rw [Ask.read]
  cases hplain : Ask.plain? request.method with
  | some ask =>
      obtain ⟨hmethod, hnone, hneeds⟩ := Ask.plain?_eq_some hplain
      refine .fits hmethod ?_ hneeds
      rintro ⟨decoder, hsome, -⟩
      cases hnone.symm.trans hsome
  | none =>
      cases hdecoder : Ask.decoder? request.method with
      | none =>
          refine .unknown fun hmem => ?_
          rcases Ask.mem_methods_iff.mp hmem with hsome | hsome
          · rw [hplain] at hsome
            cases hsome
          · rw [hdecoder] at hsome
            cases hsome
      | some decoder =>
          obtain ⟨hmethod, -, hneeds⟩ := Ask.decoder?_eq_some hdecoder
          cases hparams : request.params with
          | none => exact .misfit hmethod ⟨decoder, hdecoder, by simp [hparams]⟩ _
          | some params =>
              show request.Reads ((decoder params).mapError _)
              cases hdecoded : decoder params with
              | error e =>
                  refine .misfit hmethod ⟨decoder, hdecoder, ?_⟩ e.message
                  rintro _ ask hsome hok
                  cases hparams.symm.trans hsome
                  cases hdecoded.symm.trans hok
              | ok ask =>
                  refine .fits hmethod ?_ (hneeds params ask hdecoded)
                  rintro ⟨other, hother, hnot⟩
                  cases hdecoder.symm.trans hother
                  exact hnot params ask hparams hdecoded

end Bridge

/-! ## Blank lines -/

namespace Json

theorem isDigit_of_isBlank {c : Char} (h : Text.isBlank c = true) : c.isDigit = false := by
  refine Bool.eq_false_iff.mpr fun hdigit => ?_
  have hrange : 48 ≤ c.toNat ∧ c.toNat ≤ 57 := by
    simp only [Char.isDigit, Bool.and_eq_true, decide_eq_true_eq, ge_iff_le,
      UInt32.le_iff_toNat_le] at hdigit
    exact hdigit
  simp only [Text.isBlank, Bool.or_eq_true, Bool.and_eq_true, decide_eq_true_eq, beq_iff_eq] at h
  omega

/-- No value begins with white space or with nothing. -/
theorem readTreeWithin_of_blank (budget : Nat) {input : List Char}
    (h : ∀ c ∈ input.head?, Text.isBlank c = true) : readTreeWithin budget input = none := by
  cases budget with
  | zero => rfl
  | succ budget =>
      have hdigits : readDigits? input = none := by
        cases input with
        | nil => rfl
        | cons c rest => simp [readDigits?, isDigit_of_isBlank (h c rfl)]
      rw [readTreeWithin]
      · rw [readNumber?, hdigits]
        rfl
      -- the characters that values begin with
      all_goals
        rintro rest rfl
        exact absurd (h _ rfl) (by decide)

end Json

namespace Bridge

/-- A blank line spells no request. -/
theorem Request.read?_eq_none_of_blank {line : String} (h : Text.isAllBlank line = true) :
    read? line = none := by
  have hblank : ∀ c ∈ (Json.skipSpace line.toList).head?, Text.isBlank c = true := by
    intro c hc
    have hmem : c ∈ line.toList :=
      (List.dropWhile_suffix _).mem (List.mem_of_mem_head? hc)
    exact List.all_eq_true.mp h c hmem
  have hnone : Json.Tree.read? line = none := by
    rw [Json.Tree.read?, Json.readTreeWithin_of_blank _ hblank]
    rfl
  rw [read?, Json.read?, hnone]
  rfl

end Bridge

end DebugBridge
