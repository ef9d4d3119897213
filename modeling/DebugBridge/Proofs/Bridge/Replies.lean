import DebugBridge.Proofs.Bridge.Eviction
import DebugBridge.Proofs.Codec.RoundTrip
import DebugBridge.Proofs.Json.Normal

/-!
# What the lines of a bridge tell

The line that answers a request is read back.  It spells an object with a version, an identifier, and
either a result or an error: the identifier is that of the request, and the error has the code and
the message of the refusal.

## Strategy

* The lines are texts of objects, so that reading and decoding are those of structures, field by field
  (`Record.Reads`).
* An identifier that was decoded from a request has 64 bits at most (`Request.fits_of_read?`), and is
  decoded again.
* No result holds a number that is not whole (`Request.answer_isWhole`), so that a line can be read
  whatever else its result is.

## Main statements

* `tells_reply`: the line with which a request is answered tells its identifier and its answer.
* `tells_refusalLine`: the same of a refusal, also of a line that is no request.
-/

namespace DebugBridge

/-! ## The members of an object -/

namespace Json

/-- The names of the entries of an object. -/
def Tree.names? : Tree → Option (List (Option String))
  | object entries => some (entries.map Prod.fst)
  | _ => none

/-- The names in an object that a text spells. -/
def members? (text : String) : Option (List (Option String)) :=
  (Tree.read? text).bind Tree.names?

theorem map_fst_entryTrees (entries : List (String × Json)) :
    (entryTrees entries).map Prod.fst = entries.map fun entry => some entry.1 := by
  induction entries with
  | nil => rfl
  | cons entry rest ih => rw [entryTrees, List.map_cons, List.map_cons, ih]

theorem members?_render {entries : List (String × Json)}
    (hwhole : (object entries).isWhole = true) :
    members? (object entries).render = some (entries.map fun entry => some entry.1) := by
  rw [members?, treeRead?_render hwhole, Option.bind_some, tree, Tree.names?, map_fst_entryTrees]

/-! ## Integers -/

theorem exists_int_eq_number (n : Int) : ∃ number, int n = .number number := by
  unfold int
  split <;> exact ⟨_, rfl⟩

theorem integer_int {bits : Nat} {n : Int} (hlow : -(2 ^ (bits - 1) : Nat) ≤ n)
    (hhigh : n < (2 ^ (bits - 1) : Nat)) : Decoder.integer bits (int n) = .ok n := by
  unfold int
  split
  · next hneg =>
    have hsize : n.natAbs ≤ Nat.pow 2 (bits - 1) := by
      rw [Nat.pow_eq]
      omega
    simp only [Decoder.integer, hsize, if_true]
    congr 1
    omega
  · next hneg =>
    have hsize : n.toNat < Nat.pow 2 (bits - 1) := by
      rw [Nat.pow_eq]
      omega
    simp only [nat, Decoder.integer, hsize, if_true]
    congr 1
    omega

theorem isFlat_int {n : Int} (hlow : -(2 ^ 63 : Nat) ≤ n) (hhigh : n < (2 ^ 63 : Nat)) :
    (int n).IsFlat := by
  unfold int
  split
  · refine ⟨?_, by rw [nesting]⟩
    simp [allNumbers, Number.isPlain]
    omega
  · have hword : n.toNat < Nat.pow 2 64 := by
      rw [Nat.pow_eq]
      omega
    exact isFlat_nat le_rfl hword

end Json

namespace Bridge

open Json (Reading decodeText? members? depthLimit)
open Json.Record (reads_field reads_default)

/-! ## Identifiers -/

namespace RequestId

/-- A number has 64 bits at most. -/
def Fits : RequestId → Prop
  | text _ => True
  | number n => -(2 ^ 63 : Nat) ≤ n ∧ n < (2 ^ 63 : Nat)

theorem Fits.decoder_toJson {id : RequestId} (h : id.Fits) : decoder id.toJson = .ok id := by
  cases id with
  | text s => rfl
  | number n =>
      have hinteger : Json.Decoder.integer 64 (.int n) = .ok n := Json.integer_int h.1 h.2
      rw [toJson]
      obtain ⟨spelled, hspelled⟩ := Json.exists_int_eq_number n
      rw [hspelled] at hinteger ⊢
      rw [decoder, hinteger]
      exact nofun

theorem Fits.isFlat_toJson {id : RequestId} (h : id.Fits) : id.toJson.IsFlat := by
  cases id with
  | text s => exact Json.isFlat_string s
  | number n => exact Json.isFlat_int h.1 h.2

theorem toJson_ne_null (id : RequestId) : id.toJson ≠ .null := by
  cases id with
  | text s => exact nofun
  | number n =>
      obtain ⟨spelled, hspelled⟩ := Json.exists_int_eq_number n
      rw [toJson, hspelled]
      exact nofun

/-- An integer that is decoded has as many bits as it may have. -/
theorem bounds_of_integer {json : Json} {n : Int} (h : Json.Decoder.integer 64 json = .ok n) :
    -(2 ^ 63 : Nat) ≤ n ∧ n < (2 ^ 63 : Nat) := by
  unfold Json.Decoder.integer at h
  split at h
  · split at h
    · next hsize =>
      cases h
      rw [Nat.pow_eq] at hsize
      omega
    · cases h
  · split at h
    · next hsize =>
      cases h
      rw [Nat.pow_eq] at hsize
      omega
    · cases h
  · cases h

theorem fits_of_decoder {json : Json} {id : RequestId} (h : decoder json = .ok id) : id.Fits := by
  unfold decoder at h
  split at h
  · cases h
    trivial
  · split at h
    · next hinteger =>
      cases h
      exact bounds_of_integer hinteger
    · cases h

end RequestId

/-- The identifier of a request that is read has 64 bits at most. -/
theorem Request.fits_of_read? {line : String} {request : Request}
    (h : read? line = some request) : ∀ id ∈ request.id, id.Fits := by
  obtain ⟨json, -, hdecoded⟩ := Option.bind_eq_some_iff.mp h
  have hok : decoder json = .ok request := by
    cases hdecoder : decoder json with
    | error e =>
        rw [hdecoder] at hdecoded
        cases hdecoded
    | ok other =>
        rw [hdecoder] at hdecoded
        cases hdecoded
        rfl
  have hid : (Json.Record.nullable "id" RequestId.decoder).Gives
      fun id? => ∀ id ∈ id?, id.Fits := by
    refine Json.Record.gives_field ?_ (by simp) (by simp)
    intro json id? hoptional id hmem
    unfold Json.Decoder.optional at hoptional
    split at hoptional
    · cases hoptional
      cases hmem
    · obtain ⟨found, hfound, rfl⟩ := map_eq_ok.mp hoptional
      cases hmem
      exact RequestId.fits_of_decoder hfound
  have hgives : record.Gives fun request => ∀ id ∈ request.id, id.Fits := by
    refine .seq (.seq (.seq (.map ?_ (Json.Record.gives_any _)) hid) (Json.Record.gives_any _))
      (Json.Record.gives_any _)
    exact fun _ _ _ hfits _ _ _ _ => hfits
  exact hgives.of_decoder hok

/-! ## What a line tells -/

/-- What a line tells whatever its result or error is. -/
structure Heading where
  jsonrpc : String
  id : Option RequestId

namespace Heading

def record : Json.Record Heading :=
  Heading.mk <$> .required "jsonrpc" .string <*> .nullable "id" RequestId.decoder

/-- The heading of a line, of which nothing else has to have a value. -/
def read? (line : String) : Option Heading :=
  decodeText? record.reading (record.decoder "Heading") line

end Heading

/-- The line is an answer: an object with a version, an identifier, and either a result or an
error. -/
inductive Tells : String → Option RequestId → Answer → Prop
  /-- the result is decoded from the line, unless it is nested too deep or a number in it has more
  than 64 bits -/
  | result {line : String} {id : RequestId} {result : Json}
      (hmembers : members? line = some [some "jsonrpc", some "id", some "result"])
      (hheading : Heading.read? line = some ⟨version, some id⟩)
      (hresult : result.isPlain = true →
        decodeText? Response.record.reading Response.decoder line =
          if result.normal.nesting < depthLimit then some ⟨version, id, result.normal⟩ else none) :
      Tells line (some id) (.ok result)
  /-- the error is decoded from the line, with the code and the message of the refusal -/
  | refusal {line : String} {id : Option RequestId} {refusal : Refusal}
      (hmembers : members? line = some [some "jsonrpc", some "id", some "error"])
      (hheading : Heading.read? line = some ⟨version, id⟩)
      (herror : decodeText? ErrorResponse.reading ErrorResponse.decoder line =
        some ⟨version, id, ⟨refusal.code, refusal.message, none⟩⟩) :
      Tells line id (.error refusal)

theorem isFlat_id {id : Option RequestId} (h : ∀ own ∈ id, own.Fits) :
    (Json.option RequestId.toJson id).IsFlat :=
  Json.isFlat_option fun own hown => (h own hown).isFlat_toJson

theorem optional_id {id : Option RequestId} (h : ∀ own ∈ id, own.Fits) :
    Json.Decoder.optional RequestId.decoder (.option RequestId.toJson id) = .ok id :=
  Json.optional_option fun own hown => ⟨own.toJson_ne_null, (h own hown).decoder_toJson⟩

/-- The heading is read from the text of an object, whatever comes behind it. -/
theorem heading_render {id : Option RequestId} (hid : ∀ own ∈ id, own.Fits) {name : String}
    {value : Json} (hname : name ∉ ["jsonrpc", "id"]) (hwhole : value.isWhole = true) :
    Heading.read? (Json.object [("jsonrpc", .string version),
        ("id", .option RequestId.toJson id), (name, value)]).render = some ⟨version, id⟩ := by
  have hreads : Heading.record.Reads
      [("jsonrpc", .string version), ("id", .option RequestId.toJson id)] ⟨version, id⟩ :=
    ((reads_field rfl (Json.string_string version)).map Heading.mk).seq
      (reads_field rfl (optional_id hid))
  have hflat : (Json.object
      [("jsonrpc", .string version), ("id", .option RequestId.toJson id)]).isPlain = true ∧
      (Json.object [("jsonrpc", .string version), ("id", .option RequestId.toJson id)]).nesting =
        1 := by
    refine Json.object_of_flat ?_
    simp only [List.forall_mem_cons]
    exact ⟨Json.isFlat_string _, isFlat_id hid, by simp⟩
  have hid' : (Json.option RequestId.toJson id).isWhole = true :=
    Json.isWhole_of_isPlain (isFlat_id hid).1
  refine (Json.decodeText?_fields ?_ (Json.readsWhole_of_whole (by simp) _) ?_ hflat.1 hreads
    (by simp) _).trans ?_
  · simp [Json.allNumbers, Json.allNumbersOfEntries, hid', hwhole]
  · show List.filter (Json.isField [("jsonrpc", .whole), ("id", .whole)]) _ = _
    obtain ⟨hversion, hid⟩ : name ≠ "jsonrpc" ∧ name ≠ "id" := by simpa using hname
    simp [Json.isField, Ne.symm hversion, Ne.symm hid]
  · rw [hflat.2]
    exact if_pos (by decide)

/-! ## Results -/

/-- The line with a result tells of it. -/
theorem tells_resultLine {id : RequestId} (hid : id.Fits) {result : Json}
    (hwhole : result.isWhole = true) :
    Tells (resultLine id result) (some id) (.ok result) := by
  have hnormal : result.normal.isWhole = true := Json.allNumbers_normal result hwhole
  have hids : ∀ own ∈ some id, own.Fits := by
    rintro _ ⟨⟩
    exact hid
  refine .result ?_ (heading_render hids (by simp) hnormal) fun hplain => ?_
  · refine Json.members?_render ?_
    simp [Json.allNumbers, Json.allNumbersOfEntries, hnormal,
      Json.isWhole_of_isPlain hid.isFlat_toJson.1]
  · have hreads : Response.record.Reads (Response.toJson ⟨version, id, result⟩).entries
        ⟨version, id, result.normal⟩ :=
      (((reads_field rfl (Json.string_string version)).map Response.mk).seq
        (reads_field rfl hid.decoder_toJson)).seq
        (reads_field rfl (congrArg Except.ok result.normal_normal))
    obtain ⟨hidPlain, hidFlat⟩ := hid.isFlat_toJson
    have hnames : ∀ entry ∈ (Response.toJson ⟨version, id, result⟩).entries,
        entry.1 ∈ Response.record.fields.map Json.FieldCheck.name := by
      simp only [Response.toJson, Json.entries, List.forall_mem_cons]
      exact ⟨by decide, by decide, by decide, by simp⟩
    have hdepth : (Json.object (Response.toJson ⟨version, id, result⟩).entries).nesting =
        result.normal.nesting + 1 := by
      simp [Response.toJson, Json.entries, Json.nesting, Json.nestingOfEntries, hidFlat]
    refine (Json.decodeText?_record hreads (by simp [Response.toJson, Json.entries])
      hnames ?_ _).trans ?_
    · simp [Json.allNumbers, Json.allNumbersOfEntries, Response.toJson, Json.entries,
        hidPlain, Json.allNumbers_normal result hplain]
    · exact congrArg (fun depth => if depth ≤ depthLimit then some _ else none) hdepth

/-! ## Refusals -/

theorem integer_code (refusal : Refusal) :
    Json.Decoder.integer 32 (.int refusal.code) = .ok refusal.code := by
  cases refusal <;> rfl

theorem isFlat_code (refusal : Refusal) : (Json.int refusal.code).IsFlat := by
  have hcode : -32700 ≤ refusal.code ∧ refusal.code ≤ -32000 := by
    cases refusal <;> simp [Refusal.code]
  exact Json.isFlat_int (by omega) (by omega)

/-- The error of a refusal is read and decoded like any structure. -/
theorem reads_refusal (refusal : Refusal) :
    (ErrorObject.toJson (.ofRefusal refusal)).isPlain = true ∧
      (ErrorObject.toJson (.ofRefusal refusal)).nesting = 1 ∧
      ErrorObject.decoder (ErrorObject.toJson (.ofRefusal refusal)) =
        .ok ⟨refusal.code, refusal.message, none⟩ := by
  have hreads : ErrorObject.record.Reads
      [("code", .int refusal.code), ("message", .string refusal.message)]
      ⟨refusal.code, refusal.message, none⟩ :=
    (((reads_field rfl (integer_code refusal)).map ErrorObject.mk).seq
      (reads_field rfl (Json.string_string refusal.message))).seq (reads_default rfl)
  have hflat : (Json.object
      [("code", .int refusal.code), ("message", .string refusal.message)]).isPlain = true ∧
      (Json.object
        [("code", .int refusal.code), ("message", .string refusal.message)]).nesting = 1 := by
    refine Json.object_of_flat ?_
    simp only [List.forall_mem_cons]
    exact ⟨isFlat_code refusal, Json.isFlat_string _, by simp⟩
  exact ⟨hflat.1, hflat.2, hreads.decoder_eq (by simp) _⟩

/-- The fields of an error inside a response are read like all of it. -/
theorem readsWhole_refusal (id : Option RequestId) (refusal : Refusal) :
    Json.ReadsWhole [("jsonrpc", .whole), ("id", .whole), ("error", ErrorObject.record.reading)]
      (ErrorResponse.toJson ⟨version, id, .ofRefusal refusal⟩).entries := by
  simp only [Json.ReadsWhole, ErrorResponse.toJson, Json.entries, List.forall_mem_cons]
  refine ⟨?_, ?_, ?_, by simp⟩
  · rintro _ ⟨⟩ depth
    rfl
  · rintro _ ⟨⟩ depth
    rfl
  · rintro _ ⟨⟩ depth
    exact Json.record_tree (Json.readsWhole_of_whole (by simp) _) depth

/-- The line with a refusal tells of it, by its code and its message. -/
theorem tells_refusalLine {id : Option RequestId} (hid : ∀ own ∈ id, own.Fits)
    (refusal : Refusal) : Tells (refusalLine id refusal) id (.error refusal) := by
  obtain ⟨hplain, hnesting, herror⟩ := reads_refusal refusal
  obtain ⟨hidPlain, hidFlat⟩ := isFlat_id hid
  have hobject : (ErrorResponse.toJson ⟨version, id, .ofRefusal refusal⟩).isPlain = true := by
    simp [Json.allNumbers, Json.allNumbersOfEntries, ErrorResponse.toJson, hplain, hidPlain]
  have hnesting : (ErrorResponse.toJson ⟨version, id, .ofRefusal refusal⟩).nesting = 2 := by
    simp [ErrorResponse.toJson, Json.nesting, Json.nestingOfEntries, hidFlat, hnesting]
  have hdepth : (ErrorResponse.toJson ⟨version, id, .ofRefusal refusal⟩).nesting ≤ depthLimit := by
    rw [hnesting]
    decide
  have hwhole := Json.isWhole_of_isPlain hobject
  refine .refusal (Json.members?_render hwhole)
    (heading_render hid (by simp) (Json.isWhole_of_isPlain hplain)) ?_
  have hreads : ErrorResponse.record.Reads
      (ErrorResponse.toJson ⟨version, id, .ofRefusal refusal⟩).entries
      ⟨version, id, ⟨refusal.code, refusal.message, none⟩⟩ :=
    (((reads_field rfl (Json.string_string version)).map ErrorResponse.mk).seq
      (reads_field rfl (optional_id hid))).seq (reads_field rfl herror)
  have hkept : (ErrorResponse.toJson ⟨version, id, .ofRefusal refusal⟩).entries.filter
      (Json.isField [("jsonrpc", .whole), ("id", .whole), ("error", ErrorObject.record.reading)]) =
        (ErrorResponse.toJson ⟨version, id, .ofRefusal refusal⟩).entries :=
    rfl
  exact (Json.decodeText?_fields hwhole (readsWhole_refusal id refusal) hkept hobject hreads
    (by simp [ErrorResponse.toJson, Json.entries]) _).trans (if_pos hdepth)

example : refusalLine (some (.number 7)) .noSession =
    "\x7b\"jsonrpc\":\"2.0\",\"id\":7,\"error\":\x7b\"code\":-32000," ++
      "\"message\":\"No GDB session is running\"\x7d\x7d" := by
  decide +kernel

/-! ## The numbers of results -/

theorem isWhole_option {α : Type} {encode : α → Json} (h : ∀ a, (encode a).isWhole = true)
    (value? : Option α) : (Json.option encode value?).isWhole = true := by
  cases value? with
  | none => rfl
  | some a => exact h a

theorem isWhole_array {α : Type} {encode : α → Json} (h : ∀ a, (encode a).isWhole = true)
    (values : List α) : (Json.array (values.map encode)).isWhole = true := by
  refine Json.allNumbersOfItems_iff.mpr fun item hitem => ?_
  obtain ⟨a, -, rfl⟩ := List.mem_map.mp hitem
  exact h a

theorem isWhole_nat (n : Nat) : (Json.nat n).isWhole = true :=
  rfl

theorem isWhole_string (s : String) : (Json.string s).isWhole = true :=
  rfl

theorem isWhole_outcome (outcome : Outcome) : outcome.toJson.isWhole = true := by
  obtain ⟨status, raw, payload⟩ := outcome
  cases payload <;>
    simp [Outcome.toJson, Json.allNumbers, Json.allNumbersOfEntries, Value.allNumbers_toJson]

theorem isWhole_breakpoint (breakpoint : Breakpoint) : breakpoint.toJson.isWhole = true :=
  rfl

theorem isWhole_frame (frame : Frame) : frame.toJson.isWhole = true := by
  simp [Frame.toJson, Json.allNumbers, Json.allNumbersOfEntries, isWhole_option isWhole_nat,
    isWhole_option isWhole_string]

theorem isWhole_variable (v : Variable) : v.toJson.isWhole = true := by
  simp [Variable.toJson, Json.allNumbers, Json.allNumbersOfEntries, isWhole_option isWhole_string]

theorem isWhole_report (report : BreakpointReport) : report.toJson.isWhole = true := by
  simp [BreakpointReport.toJson, Json.allNumbers, Json.allNumbersOfEntries,
    isWhole_option isWhole_nat, isWhole_option isWhole_string, isWhole_nat]

/-- The numbers in a result are integers. -/
def Whole (answer : Answer) : Prop :=
  ∀ result, answer = .ok result → result.isWhole = true

theorem whole_ok {result : Json} (h : result.isWhole = true) : Whole (.ok result) := by
  rintro _ ⟨⟩
  exact h

theorem whole_error (refusal : Refusal) : Whole (.error refusal) :=
  nofun

/-- What a program has ended with makes no difference to the numbers that come behind it. -/
theorem whole_bind {β : Type} (program : Activity β) {next : β → Activity Answer}
    (h : ∀ value, (next value).Yields fun answer _ => Whole answer) :
    (program >>= next).Yields fun answer _ => Whole answer :=
  Program.yields_bind.mpr (Program.yields_of_forall fun value _ => h value)

theorem withTenant_whole {program : Tenant → Activity Answer}
    (h : ∀ tenant, (program tenant).Yields fun answer _ => Whole answer) :
    (withTenant program).Yields fun answer _ => Whole answer := by
  intro tenant?
  cases tenant? with
  | none => exact whole_error _
  | some tenant => exact h tenant

theorem viewed_whole {name : String} {view : Outcome → Json}
    (h : ∀ outcome, (view outcome).isWhole = true) (call : Session.Call) :
    (viewed name view call).Yields fun answer _ => Whole answer := by
  refine withTenant_whole fun tenant => whole_bind _ fun outcome => whole_ok ?_
  simp [Json.allNumbers, Json.allNumbersOfEntries, h, isWhole_outcome]

theorem StartServed.whole {surroundings : Surroundings} {plan : Session.Plan} {answer : Answer}
    {deeds : List (Deed interface)} (h : StartServed surroundings plan answer deeds) :
    Whole answer := by
  cases h with
  | declined | failed | crowdedOut => exact whole_error _
  | settled => exact whole_ok rfl

theorem Ask.answer_whole (surroundings : Surroundings) (ask : Ask) :
    (ask.answer surroundings).Yields fun answer _ => Whole answer := by
  cases ask with
  | start params => exact (start_yields surroundings params).mono fun _ _ h => h.whole
  | stop =>
      intro tenant?
      cases tenant? with
      | none => exact whole_error _
      | some tenant =>
          exact whole_bind (onSession tenant.id (Session.stop tenant.plan.config)) fun _ _ =>
            whole_ok rfl
  | status =>
      intro tenant?
      cases tenant? with
      | none => exact whole_ok rfl
      | some tenant =>
          intro phase running breakpoint
          refine whole_ok ?_
          simp [Json.allNumbers, Json.allNumbersOfEntries, isWhole_option isWhole_breakpoint,
            Session.Phase.toJson]
  | call | command =>
      exact withTenant_whole fun tenant => whole_bind _ fun outcome =>
        whole_ok (isWhole_outcome outcome)
  | insert breakpoint =>
      refine withTenant_whole fun tenant => whole_bind _ fun outcome => ?_
      cases Outcome.decoder outcome.toJson.normal with
      | error e => exact whole_error _
      | ok decoded =>
          have hresult : Whole (.ok (.object
              [("breakpoint", .option BreakpointReport.toJson decoded.breakpoint?),
                ("result", decoded.toJson)])) := by
            refine whole_ok ?_
            simp [Json.allNumbers, Json.allNumbersOfEntries, isWhole_option isWhole_report,
              isWhole_outcome]
          show Program.Yields (if decoded.isSuccess then _ else _) _
          split
          · exact fun _ => hresult
          · exact hresult
  | remove breakpoint =>
      exact withTenant_whole fun tenant => whole_bind _ fun outcome _ =>
        whole_ok (isWhole_outcome outcome)
  | settings list =>
      exact withTenant_whole fun tenant => whole_bind _ fun outcomes =>
        whole_ok (isWhole_array isWhole_outcome outcomes)
  | frames => exact viewed_whole (fun o => isWhole_array isWhole_frame _) _
  | locals => exact viewed_whole (fun o => isWhole_array isWhole_variable _) _

/-- The result of a request holds no numbers but integers. -/
theorem Request.answer_whole (surroundings : Surroundings) (request : Request) :
    (request.answer surroundings).Yields fun answer _ => Whole answer := by
  unfold Request.answer
  cases Ask.read request.method request.params with
  | error refusal => exact whole_error _
  | ok ask => exact ask.answer_whole surroundings

/-- **A request is answered by a line that tells its identifier and its answer.** -/
theorem tells_reply {id : RequestId} (hid : id.Fits) {answer : Answer} (hwhole : Whole answer) :
    ∃ line, reply (some id) answer = some line ∧ Tells line (some id) answer := by
  cases answer with
  | ok result => exact ⟨_, rfl, tells_resultLine hid (hwhole result rfl)⟩
  | error refusal =>
      refine ⟨_, rfl, tells_refusalLine ?_ refusal⟩
      rintro _ ⟨⟩
      exact hid

end Bridge

end DebugBridge
