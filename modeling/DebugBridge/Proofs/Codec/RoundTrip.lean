import DebugBridge.Bridge.Server
import DebugBridge.Codec.Link
import DebugBridge.Proofs.Codec.Reordering
import DebugBridge.Proofs.Json.Reading
import DebugBridge.Proofs.Record.Listing

/-!
# Structures as JSON and back

What is written as JSON text is decoded from it again: outcomes and events as far as their values
are nested no deeper than the reader of texts goes, and the structures without values always.  The
bridge takes the outcome of an insertion through the normal form of its JSON form; whatever it looks
at there is as in the outcome itself.

## Strategy

Each structure is found among its own entries, field by field, in the way in which its decoder is
put together (`Record.Reads`).  The outcome is found in the same way among the entries of the normal
form (`Outcome.reads_of_find?`), where only its payload is another one, a reordered one.

## Main statements

* `Bridge.inserted_eq`: how an insertion ends after the detour.
* `Record.isProper_of_read`: records that are read have each name once in a tuple.
* `results_survive_json`: texts and the detour.
-/

namespace DebugBridge

namespace Json

/-- What a text decodes to, if it is read and decodes. -/
def decodeText? {α : Type} (reading : Reading) (decoder : Decoder α) (text : String) : Option α :=
  (read? reading text).bind fun json => (decoder json).toOption

theorem decodeText?_whole {α : Type} {decoder : Decoder α} {json : Json} {a : α}
    (hplain : json.isPlain = true) (hdecoder : decoder json = .ok a) :
    decodeText? Reading.whole decoder json.render =
      if json.nesting ≤ depthLimit then some a else none := by
  rw [decodeText?, read?_render hplain]
  split
  · rw [Option.bind_some, hdecoder]
    rfl
  · rfl

/-- A structure is decoded from the text of an object, of which only some fields are read. -/
theorem decodeText?_fields {α : Type} {record : Record α} {fields : List (String × Reading)}
    {entries kept : List (String × Json)} {a : α} (hwhole : (object entries).isWhole = true)
    (hreading : ReadsWhole fields entries) (hkept : entries.filter (isField fields) = kept)
    (hplain : (object kept).isPlain = true) (hreads : record.Reads kept a)
    (hnodup : (kept.map Prod.fst).Nodup) (type : String) :
    decodeText? (Reading.record fields) (record.decoder type) (object entries).render =
      if (object kept).nesting ≤ depthLimit then some a else none := by
  rw [decodeText?, read?_render_object hwhole hreading hkept hplain]
  split
  · rw [Option.bind_some, hreads.decoder_eq hnodup]
    rfl
  · rfl

/-- A structure is decoded from the text of an object that holds its fields. -/
theorem decodeText?_record {α : Type} {record : Record α} {entries : List (String × Json)} {a : α}
    (hreads : record.Reads entries a) (hnodup : (entries.map Prod.fst).Nodup)
    (hnames : ∀ entry ∈ entries, entry.1 ∈ record.fields.map FieldCheck.name)
    (hplain : (object entries).isPlain = true) (type : String) :
    decodeText? record.reading (record.decoder type) (object entries).render =
      if (object entries).nesting ≤ depthLimit then some a else none := by
  refine decodeText?_fields (isWhole_of_isPlain hplain) (readsWhole_of_whole (by simp) entries) ?_
    hplain hreads hnodup type
  refine List.filter_eq_self.mpr fun entry hentry => ?_
  obtain ⟨field, hfield, hname⟩ := List.mem_map.mp (hnames entry hentry)
  rw [isField, List.find?_isSome]
  exact ⟨_, List.mem_map_of_mem hfield, by simp [hname]⟩

/-! ## Flat structures -/

/-- The entries of an object. -/
def entries : Json → List (String × Json)
  | object entries => entries
  | _ => []

/-- A value without nesting, whose number, if it is one, is an integer of 64 bits. -/
def IsFlat (json : Json) : Prop :=
  json.isPlain = true ∧ json.nesting = 0

theorem isFlat_string (s : String) : (string s).IsFlat :=
  ⟨rfl, by rw [nesting]⟩

theorem isFlat_bool (b : Bool) : (bool b).IsFlat :=
  ⟨rfl, by rw [nesting]⟩

/-- A number of at most 64 bits is flat. -/
theorem isFlat_nat {bits n : Nat} (hbits : bits ≤ 64) (h : n < Nat.pow 2 bits) :
    (nat n).IsFlat := by
  have hlarge : Nat.pow 2 bits ≤ Nat.pow 2 64 := Nat.pow_le_pow_right (by omega) hbits
  refine ⟨?_, by rw [nat, nesting]⟩
  exact decide_eq_true (by omega)

theorem isFlat_option {α : Type} {encode : α → Json} {value? : Option α}
    (h : ∀ a ∈ value?, (encode a).IsFlat) : (option encode value?).IsFlat := by
  cases value? with
  | none => exact ⟨rfl, by rw [option, Option.map_none, Option.getD_none, nesting]⟩
  | some a => exact h a rfl

/-- An object whose values are flat has one level. -/
theorem object_of_flat {entries : List (String × Json)} (h : ∀ entry ∈ entries, entry.2.IsFlat) :
    (object entries).isPlain = true ∧ (object entries).nesting = 1 := by
  rw [isPlain, allNumbers, nesting]
  induction entries with
  | nil => exact ⟨rfl, rfl⟩
  | cons entry rest ih =>
      rw [List.forall_mem_cons] at h
      obtain ⟨hplain, hnesting⟩ := ih h.2
      obtain ⟨hfirst, hflat⟩ := h.1
      rw [allNumbersOfEntries, nestingOfEntries, hplain, hflat, Bool.and_true]
      exact ⟨hfirst, by omega⟩

/-- A structure all whose fields are flat is decoded from its text. -/
theorem decodeText?_flat {α : Type} {record : Record α} {entries : List (String × Json)} {a : α}
    (hreads : record.Reads entries a)
    (hnames : entries.map Prod.fst = record.fields.map FieldCheck.name)
    (hnodup : (record.fields.map FieldCheck.name).Nodup)
    (hflat : ∀ entry ∈ entries, entry.2.IsFlat) (type : String) :
    decodeText? record.reading (record.decoder type) (object entries).render = some a := by
  obtain ⟨hplain, hnesting⟩ := object_of_flat hflat
  have hfields : ∀ entry ∈ entries, entry.1 ∈ record.fields.map FieldCheck.name :=
    fun entry hentry => hnames ▸ List.mem_map_of_mem hentry
  rw [decodeText?_record hreads (hnames ▸ hnodup) hfields hplain, hnesting]
  exact if_pos (by decide)

/-! ## Fields -/

theorem string_string (s : String) : Decoder.string (string s) = .ok s :=
  rfl

theorem path_string (s : String) : Decoder.path (string s) = .ok s :=
  rfl

theorem bool_bool (b : Bool) : Decoder.bool (bool b) = .ok b :=
  rfl

theorem word_nat {bits n : Nat} (h : n < Nat.pow 2 bits) : Decoder.word bits (nat n) = .ok n :=
  if_pos h

theorem optional_string (value? : Option String) :
    Decoder.optional .string (option string value?) = .ok value? :=
  optional_option fun _ _ => ⟨by simp, rfl⟩

theorem optional_word {bits : Nat} {value? : Option Nat} (h : ∀ n ∈ value?, n < Nat.pow 2 bits) :
    Decoder.optional (.word bits) (option nat value?) = .ok value? :=
  optional_option fun n hn => ⟨by simp [nat], word_nat (h n hn)⟩

theorem isFlat_option_string (value? : Option String) : (option string value?).IsFlat :=
  isFlat_option fun s _ => isFlat_string s

theorem isFlat_option_nat {bits : Nat} (hbits : bits ≤ 64) {value? : Option Nat}
    (h : ∀ n ∈ value?, n < Nat.pow 2 bits) : (option nat value?).IsFlat :=
  isFlat_option fun n hn => isFlat_nat hbits (h n hn)

end Json

namespace Value

mutual

/-- No number is in the JSON form of a value. -/
theorem allNumbers_toJson (kind : Json.Number → Bool) (value : Value) :
    value.toJson.allNumbers kind = true := by
  cases value with
  | text content => rfl
  | list items => exact allNumbersOfItems_itemsToJson kind items
  | tuple entries => exact allNumbersOfEntries_entriesToJson kind entries

theorem allNumbersOfItems_itemsToJson (kind : Json.Number → Bool) (items : List Value) :
    Json.allNumbersOfItems kind (itemsToJson items) = true := by
  cases items with
  | nil => rfl
  | cons item rest =>
      rw [itemsToJson, Json.allNumbersOfItems, allNumbers_toJson kind item,
        allNumbersOfItems_itemsToJson kind rest]
      rfl

theorem allNumbersOfEntries_entriesToJson (kind : Json.Number → Bool) (entries : Entries) :
    Json.allNumbersOfEntries kind (entriesToJson entries) = true := by
  cases entries with
  | nil => rfl
  | cons pair rest =>
      rw [entriesToJson, Json.allNumbersOfEntries, allNumbers_toJson kind pair.2,
        allNumbersOfEntries_entriesToJson kind rest]
      rfl

end

theorem optional_decoder_toJson {value : Value} (h : value.IsProper) :
    Json.Decoder.optional Value.decoder value.toJson = .ok (some value) := by
  refine Json.optional_eq_ok ?_ (decoder_toJson h)
  cases value <;> simp [toJson]

end Value

open Json (depthLimit decodeText? string_string path_string bool_bool word_nat optional_string
  optional_word isFlat_string isFlat_bool isFlat_nat isFlat_option_string isFlat_option_nat)
open Json.Record (reads_field reads_default Reads)

/-! ## Outcomes and events -/

namespace Outcome

/-- No name is there twice, in any tuple of the payload. -/
def IsProper (outcome : Outcome) : Prop :=
  ∀ value ∈ outcome.payload, value.IsProper

theorem toJson_eq (outcome : Outcome) : outcome.toJson = .object outcome.toJson.entries :=
  rfl

theorem nodup_entries (outcome : Outcome) : (outcome.toJson.entries.map Prod.fst).Nodup := by
  obtain ⟨status, raw, payload⟩ := outcome
  cases payload <;> simp [toJson, Json.entries]

theorem decoder_keyword (status : Status) :
    Status.decoder (.string status.keyword) = .ok status := by
  cases status <;> rfl

/-- An outcome is found among entries by its three fields. -/
theorem reads_of_find? {outcome : Outcome} {entries : List (String × Json)}
    (hstatus : Json.find? "status" entries = some (.string outcome.status.keyword))
    (hraw : Json.find? "raw" entries = some (.string outcome.raw))
    (hpayload : (Json.Record.optional "payload" Value.decoder).Reads entries outcome.payload) :
    record.Reads entries outcome :=
  (((reads_field hstatus (decoder_keyword outcome.status)).map Outcome.mk).seq
    (reads_field hraw rfl)).seq hpayload

theorem IsProper.reads_entries {outcome : Outcome} (h : outcome.IsProper) :
    record.Reads outcome.toJson.entries outcome := by
  refine reads_of_find? rfl rfl ?_
  obtain ⟨status, raw, payload⟩ := outcome
  cases payload with
  | none => exact reads_default rfl
  | some value => exact reads_field rfl (Value.optional_decoder_toJson (h value rfl))

/-- An outcome is decoded from its text, unless its payload is nested too deep. -/
theorem IsProper.decodeText?_render {outcome : Outcome} (h : outcome.IsProper) :
    decodeText? record.reading decoder outcome.toJson.render =
      if outcome.toJson.nesting ≤ depthLimit then some outcome else none := by
  refine Json.decodeText?_record h.reads_entries outcome.nodup_entries ?_ ?_ _
  · obtain ⟨status, raw, payload⟩ := outcome
    cases payload <;> simp [toJson, Json.entries] <;> decide
  · obtain ⟨status, raw, payload⟩ := outcome
    cases payload <;> simp [toJson, Json.entries, Json.allNumbers, Json.allNumbersOfEntries,
      Value.allNumbers_toJson]

end Outcome

namespace AsyncRecord

/-- A record of the debugger's own accord is decoded from its text, unless its payload is nested too
deep. -/
theorem decodeText?_render {event : AsyncRecord} (h : event.payload.IsProper) :
    decodeText? record.reading decoder event.toJson.render =
      if event.toJson.nesting ≤ depthLimit then some event else none := by
  have hreads : record.Reads [("name", .string event.name), ("payload", event.payload.toJson)]
      event :=
    ((reads_field rfl (string_string event.name)).map AsyncRecord.mk).seq
      (reads_field rfl (Value.decoder_toJson h))
  refine Json.decodeText?_record hreads (by simp) ?_ ?_ _
  · simp
    decide
  · simp [Json.allNumbers, Json.allNumbersOfEntries, Value.allNumbers_toJson]

end AsyncRecord

/-! ## Structures without values -/

namespace Frame

theorem Fits.decodeText?_render {frame : Frame} (h : frame.Fits) :
    decodeText? record.reading decoder frame.toJson.render = some frame := by
  have hreads : record.Reads frame.toJson.entries frame :=
    ((((((reads_field rfl (optional_word h.1)).map Frame.mk).seq
      (reads_field rfl (optional_string frame.addr))).seq
      (reads_field rfl (optional_string frame.func))).seq
      (reads_field rfl (optional_string frame.file))).seq
      (reads_field rfl (optional_string frame.fullname))).seq
      (reads_field rfl (optional_word h.2))
  refine Json.decodeText?_flat hreads rfl (by decide) ?_ _
  simp only [toJson, Json.entries, List.forall_mem_cons]
  exact ⟨isFlat_option_nat (by decide) h.1, isFlat_option_string _, isFlat_option_string _,
    isFlat_option_string _, isFlat_option_string _, isFlat_option_nat (by decide) h.2, nofun⟩

end Frame

namespace Variable

theorem decodeText?_render (v : Variable) :
    decodeText? record.reading decoder v.toJson.render = some v := by
  have hreads : record.Reads v.toJson.entries v :=
    ((reads_field rfl (string_string v.name)).map Variable.mk).seq
      (reads_field rfl (optional_string v.value))
  refine Json.decodeText?_flat hreads rfl (by decide) ?_ _
  simp only [toJson, Json.entries, List.forall_mem_cons]
  exact ⟨isFlat_string _, isFlat_option_string _, nofun⟩

end Variable

namespace Breakpoint

theorem decodeText?_render {breakpoint : Breakpoint} (h : breakpoint.line < Nat.pow 2 32) :
    decodeText? record.reading decoder breakpoint.toJson.render = some breakpoint := by
  have hreads : record.Reads breakpoint.toJson.entries breakpoint :=
    ((reads_field rfl (path_string breakpoint.file)).map Breakpoint.mk).seq
      (reads_field rfl (word_nat h))
  refine Json.decodeText?_flat hreads rfl (by decide) ?_ _
  simp only [toJson, Json.entries, List.forall_mem_cons]
  exact ⟨isFlat_string _, isFlat_nat (by decide) h, nofun⟩

end Breakpoint

namespace BreakpointReport

/-- The numbers of a report have at most 32 bits. -/
def Fits (report : BreakpointReport) : Prop :=
  (∀ line ∈ report.line, line < Nat.pow 2 32) ∧ report.times < Nat.pow 2 32

theorem Fits.reads_entries {report : BreakpointReport} (h : report.Fits) :
    record.Reads report.toJson.entries report :=
  (((((((((((reads_field rfl (string_string report.number)).map BreakpointReport.mk).seq
    (reads_field rfl (string_string report.kind))).seq
    (reads_field rfl (string_string report.disposition))).seq
    (reads_field rfl (bool_bool report.enabled))).seq
    (reads_field rfl (optional_string report.addr))).seq
    (reads_field rfl (optional_string report.func))).seq
    (reads_field rfl (optional_string report.file))).seq
    (reads_field rfl (optional_string report.fullname))).seq
    (reads_field rfl (optional_word h.1))).seq
    (reads_field rfl (word_nat h.2))).seq
    (reads_field rfl (optional_string report.originalLocation))

theorem Fits.decodeText?_render {report : BreakpointReport} (h : report.Fits) :
    decodeText? record.reading decoder report.toJson.render = some report := by
  refine Json.decodeText?_flat h.reads_entries rfl (by decide) ?_ _
  simp only [toJson, Json.entries, List.forall_mem_cons]
  exact ⟨isFlat_string _, isFlat_string _, isFlat_string _, isFlat_bool _, isFlat_option_string _,
    isFlat_option_string _, isFlat_option_string _, isFlat_option_string _,
    isFlat_option_nat (by decide) h.1, isFlat_nat (by decide) h.2, isFlat_option_string _, nofun⟩

end BreakpointReport

namespace Link

/-- A port has at most 16 bits, and a baud rate at most 32. -/
def Fits : Link → Prop
  | tcp _ port => port < Nat.pow 2 16
  | serial _ baudRate => ∀ rate ∈ baudRate, rate < Nat.pow 2 32

/-- A link is decoded from what stands behind its type. -/
theorem Fits.decoder_toJson {link : Link} (h : link.Fits) : decoder link.toJson = .ok link := by
  cases link with
  | tcp host port =>
      have hreads : Kind.tcp.record.Reads [("host", .string host), ("port", .nat port)]
          (tcp host port) :=
        ((reads_field rfl (string_string host)).map Link.tcp).seq (reads_field rfl (word_nat h))
      exact hreads.ofEntries_eq (by simp) _
  | serial port baudRate =>
      have hreads : Kind.serial.record.Reads
          [("port", .string port), ("baud_rate", .option .nat baudRate)] (serial port baudRate) :=
        ((reads_field rfl (string_string port)).map Link.serial).seq
          (reads_field rfl (optional_word h))
      exact hreads.ofEntries_eq (by simp) _

theorem Fits.decodeText?_render {link : Link} (h : link.Fits) :
    decodeText? Json.Reading.whole decoder link.toJson.render = some link := by
  have hobject : link.toJson.isPlain = true ∧ link.toJson.nesting = 1 := by
    cases link with
    | tcp host port =>
        refine Json.object_of_flat ?_
        simp only [List.forall_mem_cons]
        exact ⟨isFlat_string _, isFlat_string _, isFlat_nat (by decide) h, nofun⟩
    | serial port baudRate =>
        refine Json.object_of_flat ?_
        simp only [List.forall_mem_cons]
        exact ⟨isFlat_string _, isFlat_string _, isFlat_option_nat (by decide) h, nofun⟩
  rw [Json.decodeText?_whole hobject.1 h.decoder_toJson, hobject.2]
  exact if_pos (by decide)

end Link

/-! ## The detour of an insertion -/

namespace Value

theorem normal_toJson_ne_null (value : Value) : value.toJson.normal ≠ .null := by
  cases value <;> simp [toJson, Json.normal]

/-- A report does not depend on the order in which a value has its entries. -/
theorem Reordered.report_eq {value other : Value} (h : Reordered value other)
    (hproper : value.IsProper) :
    BreakpointReport.ofValue? value = BreakpointReport.ofValue? other := by
  simp only [BreakpointReport.ofValue?, h.text?_eq hproper, h.word?_eq hproper]

end Value

namespace Outcome

/-- From the normal form of its JSON form, an outcome comes back with its payload reordered. -/
theorem IsProper.exists_detour {outcome : Outcome} (h : outcome.IsProper) :
    ∃ decoded, decoder outcome.toJson.normal = .ok decoded ∧ decoded.status = outcome.status ∧
      decoded.raw = outcome.raw ∧
      Option.Rel Value.Reordered outcome.payload decoded.payload := by
  have hfind := Json.find?_normalEntries outcome.nodup_entries
  have hnormal := calc
    outcome.toJson.normal = (Json.object outcome.toJson.entries).normal := by rw [← toJson_eq]
    _ = .object (Json.normalEntries [] outcome.toJson.entries) := by rw [Json.normal]
  have hnodup := Json.nodup_normalEntries outcome.nodup_entries
  -- what is found there is decoded like the fields of any outcome
  have hdecodes {decoded : Outcome} (hstatus : decoded.status = outcome.status)
      (hraw : decoded.raw = outcome.raw)
      (hpayload : (Json.Record.optional "payload" Value.decoder).Reads
        (Json.normalEntries [] outcome.toJson.entries) decoded.payload) :
      decoder outcome.toJson.normal = .ok decoded := by
    rw [hnormal]
    refine (reads_of_find? ?_ ?_ hpayload).decoder_eq hnodup _
    · rw [hfind, hstatus]
      rfl
    · rw [hfind, hraw]
      rfl
  obtain ⟨status, raw, payload⟩ := outcome
  cases payload with
  | none =>
      refine ⟨⟨status, raw, none⟩, hdecodes rfl rfl (reads_default ?_), rfl, rfl, .none⟩
      rw [hfind]
      rfl
  | some value =>
      obtain ⟨other, hother, hreordered⟩ := value.exists_reordered (h value rfl)
      have hoptional : Json.Decoder.optional Value.decoder value.toJson.normal = .ok (some other) :=
        Json.optional_eq_ok value.normal_toJson_ne_null (by rw [Value.decoder, hother])
      refine ⟨⟨status, raw, some other⟩, hdecodes rfl rfl (reads_field ?_ hoptional), rfl, rfl,
        .some hreordered⟩
      rw [hfind]
      rfl

/-- The report of an outcome does not depend on the order of the entries in its payload. -/
theorem IsProper.breakpoint?_eq {outcome decoded : Outcome} (h : outcome.IsProper)
    (hpayload : Option.Rel Value.Reordered outcome.payload decoded.payload) :
    decoded.breakpoint? = outcome.breakpoint? := by
  obtain ⟨status, raw, payload⟩ := outcome
  obtain ⟨status', raw', payload'⟩ := decoded
  cases hpayload with
  | none => rfl
  | @some value other hreordered =>
      have hproper := h value rfl
      have hget := hreordered.get? hproper "bkpt"
      show (other.get? "bkpt").bind BreakpointReport.ofValue? =
        (value.get? "bkpt").bind BreakpointReport.ofValue?
      cases hvalue : value.get? "bkpt" with
      | none =>
          rw [hvalue] at hget
          generalize other.get? "bkpt" = found' at hget
          cases hget
          rfl
      | some found =>
          rw [hvalue] at hget
          generalize other.get? "bkpt" = found' at hget
          cases hget with
          | some hfound => exact (hfound.report_eq (hproper.of_get? hvalue)).symm

end Outcome

namespace Bridge

/-- How an insertion ends: the breakpoint is remembered if an outcome is a success, and the answer
holds the report of the outcome and an outcome to send along. -/
def concluded (breakpoint : Breakpoint) (outcome sent : Outcome) : Activity Answer := do
  if outcome.isSuccess then
    perform (.remember breakpoint)
  return .ok (.object [("breakpoint", .option BreakpointReport.toJson outcome.breakpoint?),
    ("result", sent.toJson)])

/-- How an insertion ends after the outcome of its command: the outcome takes the detour, and what
comes back is looked at and sent along. -/
def inserted (breakpoint : Breakpoint) (outcome : Outcome) : Activity Answer :=
  match Outcome.decoder outcome.toJson.normal with
  | .error e => return .error (.internal e.message)
  | .ok decoded => concluded breakpoint decoded decoded

theorem insert_eq (breakpoint : Breakpoint) :
    insert breakpoint =
      withTenant fun tenant => callTenant tenant (.insert breakpoint) >>= inserted breakpoint :=
  rfl

/-- An insertion ends as if its outcome had been looked at, and only what is sent along has taken
the detour. -/
theorem inserted_eq {outcome : Outcome} (h : outcome.IsProper) :
    ∃ decoded, Outcome.decoder outcome.toJson.normal = .ok decoded ∧
      decoded.status = outcome.status ∧ decoded.raw = outcome.raw ∧
      Option.Rel Value.Reordered outcome.payload decoded.payload ∧
      decoded.breakpoint? = outcome.breakpoint? ∧ decoded.isSuccess = outcome.isSuccess ∧
      ∀ breakpoint, inserted breakpoint outcome = concluded breakpoint outcome decoded := by
  obtain ⟨decoded, hdecoded, hstatus, hraw, hpayload⟩ := h.exists_detour
  have hreport := h.breakpoint?_eq hpayload
  have hsuccess : decoded.isSuccess = outcome.isSuccess := by
    rw [Outcome.isSuccess, Outcome.isSuccess, hstatus]
  refine ⟨decoded, hdecoded, hstatus, hraw, hpayload, hreport, hsuccess, fun breakpoint => ?_⟩
  rw [inserted, hdecoded]
  simp only [concluded, hsuccess, hreport]

end Bridge

namespace Record

/-! ## Records hold proper values -/

theorem isProper_of_readHead {line text : List Char} {name : String} {payload : Option Value}
    (h : readHead line text = .ok (name, payload)) : ∀ value ∈ payload, value.IsProper := by
  rw [readHead] at h
  split at h
  · cases h
  · cases h
    intro value hvalue
    cases hvalue
  · split at h
    · next hentries =>
      cases h
      rintro _ ⟨⟩
      exact Value.isProper_of_readEntries hentries
    · cases h

/-- An outcome that is read from a line is proper. -/
theorem isProper_of_readResult {line text : List Char} {outcome : Outcome}
    (h : readResult line text = .ok outcome) : outcome.IsProper := by
  rw [readResult, bind_eq_ok] at h
  obtain ⟨⟨name, payload⟩, hhead, hrest⟩ := h
  simp only at hrest
  split at hrest
  · cases hrest
    exact isProper_of_readHead hhead
  · cases hrest

theorem isProper_of_readAsync {line text : List Char} {event : AsyncRecord}
    (h : readAsync line text = .ok event) : event.payload.IsProper := by
  rw [readAsync, bind_eq_ok] at h
  obtain ⟨⟨name, payload⟩, hhead, hrest⟩ := h
  cases hrest
  cases payload with
  | none => exact Value.isProper_tuple.mpr ⟨List.nodup_nil, by simp⟩
  | some value => exact isProper_of_readHead hhead value rfl

/-- The payload of a record, if it has one, is proper. -/
def IsProper : Record → Prop
  | result outcome => outcome.IsProper
  | exec event | notify event => event.payload.IsProper
  | console _ | log _ | target _ => True

theorem isProper_of_read {line : String} {record : Record} (h : read line = .ok (some record)) :
    record.IsProper := by
  simp only [read] at h
  split at h
  · cases h
  unfold readTrimmed at h
  split at h
  · obtain ⟨outcome, hresult, hrecord⟩ := map_eq_ok.mp h
    cases hrecord
    exact isProper_of_readResult hresult
  · obtain ⟨event, hasync, hrecord⟩ := map_eq_ok.mp h
    cases hrecord
    exact isProper_of_readAsync hasync
  · obtain ⟨event, hasync, hrecord⟩ := map_eq_ok.mp h
    cases hrecord
    exact isProper_of_readAsync hasync
  · cases h
    trivial
  · cases h
    trivial
  · cases h
    trivial
  · cases h

end Record

/-- **Results survive JSON.**  An outcome or an event, in which no tuple has a name twice, is
decoded from its JSON text if that is nested as deep as the reader goes at most, and not otherwise;
the structures without values are always decoded from theirs.  The outcome of an insertion takes a
detour through the normal form of its JSON form: it comes back with its status, its text, and its
payload up to the order of the entries in each tuple, and the bridge answers and acts as if it had
looked at the outcome itself.  No record that is read from a line has a name twice in a tuple. -/
theorem results_survive_json :
    (∀ outcome : Outcome, outcome.IsProper →
      decodeText? Outcome.record.reading Outcome.decoder outcome.toJson.render =
        if outcome.toJson.nesting ≤ depthLimit then some outcome else none) ∧
    (∀ event : AsyncRecord, event.payload.IsProper →
      decodeText? AsyncRecord.record.reading AsyncRecord.decoder event.toJson.render =
        if event.toJson.nesting ≤ depthLimit then some event else none) ∧
    (∀ breakpoint : Breakpoint, breakpoint.line < Nat.pow 2 32 →
      decodeText? Breakpoint.record.reading Breakpoint.decoder breakpoint.toJson.render =
        some breakpoint) ∧
    (∀ report : BreakpointReport, report.Fits →
      decodeText? BreakpointReport.record.reading BreakpointReport.decoder report.toJson.render =
        some report) ∧
    (∀ frame : Frame, frame.Fits →
      decodeText? Frame.record.reading Frame.decoder frame.toJson.render = some frame) ∧
    (∀ v : Variable,
      decodeText? Variable.record.reading Variable.decoder v.toJson.render = some v) ∧
    (∀ link : Link, link.Fits →
      decodeText? Json.Reading.whole Link.decoder link.toJson.render = some link) ∧
    (∀ outcome : Outcome, outcome.IsProper →
      ∃ decoded, Outcome.decoder outcome.toJson.normal = .ok decoded ∧
        decoded.status = outcome.status ∧ decoded.raw = outcome.raw ∧
        Option.Rel Value.Reordered outcome.payload decoded.payload ∧
        decoded.breakpoint? = outcome.breakpoint? ∧ decoded.isSuccess = outcome.isSuccess ∧
        ∀ breakpoint, Bridge.inserted breakpoint outcome =
          Bridge.concluded breakpoint outcome decoded) ∧
    (∀ breakpoint : Breakpoint, Bridge.insert breakpoint = Bridge.withTenant fun tenant =>
      Bridge.callTenant tenant (.insert breakpoint) >>= Bridge.inserted breakpoint) ∧
    (∀ line record, Record.read line = .ok (some record) → record.IsProper) :=
  ⟨fun _ h => h.decodeText?_render, fun _ h => AsyncRecord.decodeText?_render h,
    fun _ h => Breakpoint.decodeText?_render h, fun _ h => h.decodeText?_render,
    fun _ h => h.decodeText?_render, Variable.decodeText?_render, fun _ h => h.decodeText?_render,
    fun _ h => Bridge.inserted_eq h, Bridge.insert_eq, fun _ _ h => Record.isProper_of_read h⟩

/-- An outcome with two names in its payload, and one of each of the other structures. -/
theorem results_survive_json_of_two_names :
    decodeText? Outcome.record.reading Outcome.decoder
        (Outcome.toJson
          ⟨.done, "^done", some (.tuple [("b", .text "1"), ("a", .list [])])⟩).render =
      some ⟨.done, "^done", some (.tuple [("b", .text "1"), ("a", .list [])])⟩ ∧
    decodeText? AsyncRecord.record.reading AsyncRecord.decoder
        (AsyncRecord.toJson ⟨"stopped", .text "x"⟩).render = some ⟨"stopped", .text "x"⟩ ∧
    decodeText? Breakpoint.record.reading Breakpoint.decoder
        (Breakpoint.toJson ⟨"a.c", 7⟩).render = some ⟨"a.c", 7⟩ ∧
    decodeText? BreakpointReport.record.reading BreakpointReport.decoder
        (BreakpointReport.toJson
          ⟨"1", "", "keep", true, none, none, none, none, some 7, 0, none⟩).render =
      some ⟨"1", "", "keep", true, none, none, none, none, some 7, 0, none⟩ ∧
    decodeText? Frame.record.reading Frame.decoder
        (Frame.toJson ⟨some 0, none, some "main", none, none, none⟩).render =
      some ⟨some 0, none, some "main", none, none, none⟩ ∧
    decodeText? Json.Reading.whole Link.decoder (Link.toJson (.tcp "localhost" 3333)).render =
      some (.tcp "localhost" 3333) ∧
    (∃ decoded, Outcome.decoder (Outcome.toJson
        ⟨.done, "^done", some (.tuple [("b", .text "1"), ("a", .list [])])⟩).normal = .ok decoded ∧
      decoded.breakpoint? = none ∧ decoded.isSuccess = true) ∧
    (Record.exec ⟨"running", .tuple [("thread-id", .text "all")]⟩).IsProper := by
  obtain ⟨houtcome, hevent, hbreakpoint, hreport, hframe, -, hlink, hdetour, -, hread⟩ :=
    results_survive_json
  have hproper : Outcome.IsProper
      ⟨.done, "^done", some (.tuple [("b", .text "1"), ("a", .list [])])⟩ := by
    rintro _ ⟨⟩
    refine Value.isProper_tuple.mpr ⟨by decide, ?_⟩
    simp only [List.forall_mem_cons]
    exact ⟨Value.isProper_text "1", Value.isProper_list.mpr nofun, nofun⟩
  refine ⟨(houtcome _ hproper).trans (if_pos (by decide)),
    (hevent ⟨"stopped", .text "x"⟩ (Value.isProper_text "x")).trans (if_pos (by decide)),
    hbreakpoint _ (by decide), hreport _ ⟨?_, by decide⟩, hframe _ ⟨?_, nofun⟩,
    hlink (.tcp "localhost" 3333) (by decide : 3333 < Nat.pow 2 16), ?_,
    hread "*running,thread-id=\"all\"" _ (by rfl)⟩
  · rintro _ ⟨⟩
    decide
  · rintro _ ⟨⟩
    decide
  · obtain ⟨decoded, hdecoded, -, -, -, hbreak, hsuccess, -⟩ := hdetour _ hproper
    exact ⟨decoded, hdecoded, hbreak, hsuccess⟩

-- the names are sorted on the way
example : Outcome.decoder (Outcome.toJson
    ⟨.done, "", some (.tuple [("b", .text "1"), ("a", .text "2")])⟩).normal =
      .ok ⟨.done, "", some (.tuple [("a", .text "2"), ("b", .text "1")])⟩ := by
  rfl

end DebugBridge
