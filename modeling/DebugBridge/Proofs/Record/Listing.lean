import DebugBridge.Proofs.Record.Skipping
import DebugBridge.Proofs.Text.Decimal
import Mathlib.Data.List.Forall2

/-!
# Listings lose nothing

A debugger answers a request for the stack by one line with a list of frames, and a request for the
variables of a frame by one with a list of variables.  What is described there is what the views of
the outcome answer: each item, in order, with all its fields.  Results with names of their own may
stand between the fields and hold anything.  A line feed in any of the texts ends the listing: no
record goes over more than one line.

## Strategy

* `Shows` says that results describe some fields.  Every name that is looked up there gives its
  field (`find?_of_shows`), since exactly the values of the field arrive under the name.
* An item of a listing is viewed by itself (`DescribedBy.ofValue?_eq`), and `List.Forall₂` carries
  this over to the whole list.
* `read_listing` and `read_listing_of_lineFeed` read the line around the items.

## Main statements

* `listing_refused_at_line_feed`: a function name with a line feed.
* `listings_lose_nothing`: which listings are read, and that those hold all that was described.
-/

namespace DebugBridge

open Value Grammar

namespace Value

/-! ## Fields that are described -/

/-- A named text, or nothing. -/
abbrev Field := String × Option String

/-- The entries for the fields that are there. -/
def present (fields : List Field) : Entries :=
  fields.filterMap fun field => field.2.map fun content => (field.1, .text content)

/-- Results describe fields: under the names of the fields they give those that are there, each of
them once, as texts, in any order; what they give under other names does not matter. -/
def Shows (fields : List Field) (results : List (Name × Tree)) : Prop :=
  ((namedValues results).filter fun pair => pair.1 ∈ fields.map Prod.fst).Perm (present fields)

variable {name : String} {content? : Option String} {fields : List Field}
  {results : List (Name × Tree)}

theorem arrivals_filter {names : List String} (hname : name ∈ names)
    (pairs : Entries) :
    Entries.arrivals name (pairs.filter fun pair => pair.1 ∈ names) =
      Entries.arrivals name pairs := by
  rw [Entries.arrivals, Entries.arrivals, List.filterMap_filter]
  apply List.filterMap_congr
  intro pair _
  by_cases heq : pair.1 = name
  · simp [heq, hname]
  · simp [heq]

theorem arrivals_present_of_not_mem (h : name ∉ fields.map Prod.fst) :
    Entries.arrivals name (present fields) = [] := by
  rw [Entries.arrivals, List.filterMap_eq_nil_iff]
  intro pair hpair
  obtain ⟨field, hfield, hpresent⟩ := List.mem_filterMap.mp hpair
  obtain ⟨content, -, rfl⟩ := Option.map_eq_some_iff.mp hpresent
  exact if_neg fun heq => h (List.mem_map.mpr ⟨field, hfield, heq⟩)

/-- Under the name of a field arrives its text, if it is there. -/
theorem arrivals_present (hnodup : (fields.map Prod.fst).Nodup)
    (hfield : (name, content?) ∈ fields) :
    Entries.arrivals name (present fields) = (content?.map text).toList := by
  induction fields with
  | nil => cases hfield
  | cons first others ih =>
      rw [List.map_cons, List.nodup_cons] at hnodup
      have hsplit : present (first :: others) = present [first] ++ present others := by
        rw [present, ← List.singleton_append, List.filterMap_append, present, present]
      rw [hsplit, Entries.arrivals, List.filterMap_append, ← Entries.arrivals, ← Entries.arrivals]
      rcases List.mem_cons.mp hfield with rfl | hothers
      · rw [arrivals_present_of_not_mem hnodup.1, List.append_nil]
        cases content? <;> simp [present, Entries.arrivals]
      · have hne : name ∉ [first].map Prod.fst := by
          rw [List.map_singleton, List.mem_singleton]
          rintro rfl
          exact hnodup.1 (List.mem_map.mpr ⟨_, hothers, rfl⟩)
        rw [arrivals_present_of_not_mem hne, ih hnodup.2 hothers, List.nil_append]

theorem gathered?_toList (value? : Option Value) : gathered? value?.toList = value? := by
  cases value? <;> rfl

/-- Where fields are described, each of them is found. -/
theorem find?_of_shows (h : Shows fields results) (hnodup : (fields.map Prod.fst).Nodup)
    (hfield : (name, content?) ∈ fields) :
    (Entries.collect (namedValues results)).find? name = content?.map text := by
  have hname : name ∈ fields.map Prod.fst := List.mem_map_of_mem hfield
  have harrivals : (Entries.arrivals name (namedValues results)).Perm
      (content?.map text).toList := by
    rw [← arrivals_filter hname, ← arrivals_present hnodup hfield]
    exact h.filterMap _
  -- with one value at most, there is one order only
  have heq : Entries.arrivals name (namedValues results) = (content?.map text).toList := by
    cases content? with
    | none => exact List.perm_nil.mp harrivals
    | some content => exact List.perm_singleton.mp harrivals
  rw [Entries.find?_collect, heq, gathered?_toList]

theorem text?_of_shows (h : Shows fields results) (hnodup : (fields.map Prod.fst).Nodup)
    (hfield : (name, content?) ∈ fields) :
    (tuple (Entries.collect (namedValues results))).text? name = content? := by
  show ((Entries.collect (namedValues results)).find? name).bind asText? = content?
  rw [find?_of_shows h hnodup hfield]
  cases content? <;> rfl

theorem word?_of_shows (h : Shows fields results) (hnodup : (fields.map Prod.fst).Nodup)
    {number? : Option Nat} (hsmall : ∀ n ∈ number?, n < Nat.pow 2 32)
    (hfield : (name, number?.map toString) ∈ fields) :
    (tuple (Entries.collect (namedValues results))).word? name = number? := by
  rw [word?, text?_of_shows h hnodup hfield]
  cases number? with
  | none => rfl
  | some n => exact Text.readBelow_toString (hsmall n rfl)

theorem isEscaped_toString (n : Nat) : isEscaped (toString n).toList = true :=
  isEscaped_of_plain (Text.not_mem_toString rfl n) (Text.not_mem_toString rfl n)

/-- Fields whose texts are escaped can be described by the results that print them. -/
theorem exists_results_of_isEscaped (hnames : ∀ field ∈ fields, isName field.1 = true)
    (hescaped : ∀ field ∈ fields, ∀ content ∈ field.2, isEscaped content.toList = true) :
    ∃ results, resultsText results = renderEntries (present fields) ∧ Shows fields results := by
  have hlegible : haveLegible (present fields) = true := by
    induction fields with
    | nil => rfl
    | cons field others ih =>
        have hothers := ih (fun field hfield => hnames field (List.mem_cons_of_mem _ hfield))
          (fun field hfield => hescaped field (List.mem_cons_of_mem _ hfield))
        obtain ⟨name, content?⟩ := field
        cases content? with
        | none => exact hothers
        | some content =>
            have hname := hnames (name, some content) List.mem_cons_self
            have hcontent := hescaped (name, some content) List.mem_cons_self content rfl
            show haveLegible ((name, text content) :: present others) = true
            rw [haveLegible, hname, isLegible, hcontent, hothers]
            rfl
  obtain ⟨results, htext, hvalues⟩ := exists_results_of_haveLegible _ hlegible
  refine ⟨results, htext, ?_⟩
  rw [Shows, hvalues, List.filter_eq_self.mpr]
  intro pair hpair
  obtain ⟨field, hfield, hpresent⟩ := List.mem_filterMap.mp hpair
  obtain ⟨content, -, rfl⟩ := Option.map_eq_some_iff.mp hpresent
  exact decide_eq_true (List.mem_map_of_mem hfield)

end Value

/-! ## Frames and variables -/

namespace Frame

/-- The numbers of a frame have at most 32 bits. -/
def Fits (frame : Frame) : Prop :=
  (∀ level ∈ frame.level, level < Nat.pow 2 32) ∧ ∀ line ∈ frame.line, line < Nat.pow 2 32

/-- The fields in which a debugger describes a frame. -/
def fields (frame : Frame) : List Field :=
  [("level", frame.level.map toString), ("addr", frame.addr), ("func", frame.func),
    ("file", frame.file), ("fullname", frame.fullname), ("line", frame.line.map toString)]

/-- Results describe a frame, whose numbers have at most 32 bits. -/
def DescribedBy (frame : Frame) (results : List (Name × Tree)) : Prop :=
  frame.Fits ∧ Shows frame.fields results

/-- The texts of a frame are escaped. -/
def AreEscaped (frame : Frame) : Prop :=
  ∀ content? ∈ [frame.addr, frame.func, frame.file, frame.fullname], ∀ content ∈ content?,
    isEscaped content.toList = true

theorem isName_of_mem_fields (frame : Frame) : ∀ field ∈ frame.fields, isName field.1 = true := by
  have hnames : ∀ name ∈ ["level", "addr", "func", "file", "fullname", "line"],
      isName name = true := by
    decide
  exact fun field hfield => hnames field.1 (List.mem_map_of_mem (f := Prod.fst) hfield)

theorem AreEscaped.of_mem_fields {frame : Frame} (h : frame.AreEscaped) :
    ∀ field ∈ frame.fields, ∀ content ∈ field.2, isEscaped content.toList = true := by
  have hnumber (number? : Option Nat) :
      ∀ content ∈ number?.map toString, isEscaped content.toList = true := by
    intro content hcontent
    obtain ⟨n, -, rfl⟩ := Option.map_eq_some_iff.mp hcontent
    exact isEscaped_toString n
  simp only [AreEscaped, List.forall_mem_cons] at h
  obtain ⟨haddr, hfunc, hfile, hfullname, -⟩ := h
  simp only [fields, List.forall_mem_cons]
  exact ⟨hnumber frame.level, haddr, hfunc, hfile, hfullname, hnumber frame.line, nofun⟩

theorem nodup_fields (frame : Frame) : (frame.fields.map Prod.fst).Nodup := by
  show ["level", "addr", "func", "file", "fullname", "line"].Nodup
  decide

/-- The frame that a tuple describes is viewed there. -/
theorem DescribedBy.ofValue?_eq {frame : Frame} {results : List (Name × Tree)}
    (hdescribed : frame.DescribedBy results) :
    ofValue? (tuple (Entries.collect (namedValues results))) = some frame := by
  obtain ⟨hfits, h⟩ := hdescribed
  have htext {name : String} {content? : Option String}
      (hfield : (name, content?) ∈ frame.fields) :=
    text?_of_shows h frame.nodup_fields hfield
  have hlevel := word?_of_shows h frame.nodup_fields hfits.1 (by simp [fields] : ("level", _) ∈ _)
  have hline := word?_of_shows h frame.nodup_fields hfits.2 (by simp [fields] : ("line", _) ∈ _)
  show some _ = some frame
  rw [hlevel, hline, htext (by simp [fields] : ("addr", frame.addr) ∈ frame.fields),
    htext (by simp [fields] : ("func", frame.func) ∈ frame.fields),
    htext (by simp [fields] : ("file", frame.file) ∈ frame.fields),
    htext (by simp [fields] : ("fullname", frame.fullname) ∈ frame.fields)]

end Frame

namespace Variable

/-- The fields in which a debugger describes a variable. -/
def fields (described : Variable) : List Field :=
  [("name", some described.name), ("value", described.value)]

/-- Results describe a variable. -/
def DescribedBy (described : Variable) (results : List (Name × Tree)) : Prop :=
  Shows described.fields results

/-- The texts of a variable are escaped. -/
def AreEscaped (described : Variable) : Prop :=
  isEscaped described.name.toList = true ∧
    ∀ content ∈ described.value, isEscaped content.toList = true

theorem isName_of_mem_fields (described : Variable) :
    ∀ field ∈ described.fields, isName field.1 = true := by
  have hnames : ∀ name ∈ ["name", "value"], isName name = true := by decide
  exact fun field hfield => hnames field.1 (List.mem_map_of_mem (f := Prod.fst) hfield)

theorem AreEscaped.of_mem_fields {described : Variable} (h : described.AreEscaped) :
    ∀ field ∈ described.fields, ∀ content ∈ field.2, isEscaped content.toList = true := by
  simp only [fields, List.forall_mem_cons]
  exact ⟨by rintro _ ⟨⟩; exact h.1, h.2, nofun⟩

theorem nodup_fields (described : Variable) : (described.fields.map Prod.fst).Nodup := by
  show ["name", "value"].Nodup
  decide

/-- The variable that a tuple describes is viewed there. -/
theorem DescribedBy.ofValue?_eq {described : Variable} {results : List (Name × Tree)}
    (h : described.DescribedBy results) :
    ofValue? (tuple (Entries.collect (namedValues results))) = some described := by
  have hname := text?_of_shows h described.nodup_fields
    (by simp [fields] : ("name", some described.name) ∈ described.fields)
  have hvalue := text?_of_shows h described.nodup_fields
    (by simp [fields] : ("value", described.value) ∈ described.fields)
  rw [ofValue?, hname, hvalue, Option.map_some]

end Variable

namespace Record

/-! ## The line of a listing -/

/-- The text of the entries has no line feed. -/
theorem splitHead?_of_lineFeed (head : Head) {body : List Char} (hline : '\n' ∈ body) :
    splitHead? (head.word ++ ',' :: body) = none := by
  obtain ⟨htake, hdrop⟩ := head.span_word (',' :: body) (by rintro _ ⟨⟩; rfl)
  simp only [splitHead?, htake, hdrop, head.head?_word, Bool.not_true, Bool.false_eq_true, if_false,
    List.contains_iff_mem, hline, if_true]

/-- The answer to a request for a listing: the items in brackets under a name. -/
def listing (name : Name) (items : List Tree) : List Char :=
  '^' :: ("done".toList ++ ',' :: (Tree.bare name (.brackets items)).text)

theorem lineFeed_mem_listing {name : Name} {items : List Tree} :
    '\n' ∈ listing name items ↔ '\n' ∈ (Tree.bare name (.brackets items)).text := by
  simp [listing]

/-- A listing ends with its closing bracket, so nothing is trimmed off. -/
theorem read_listing_eq (name : Name) (items : List Tree) :
    read (String.ofList (listing name items)) = readTrimmed (listing name items) := by
  have hlast : ("done".toList ++ ',' :: (Tree.bare name (.brackets items)).text).getLast? =
      some ']' := by
    simp [List.getLast?_append, List.getLast?_cons]
  have hbehind := @trimLine_of_not_isBlank []
    ("done".toList ++ ',' :: (Tree.bare name (.brackets items)).text) '^' (by simp) rfl
  rw [Text.dropTrailing_of_getLast? hlast rfl] at hbehind
  have htrim : trimLine (String.ofList (listing name items)).toList = listing name items := by
    rw [String.toList_ofList]
    exact hbehind
  exact read_of_not_isIdle htrim (isIdle_cons rfl (by decide) _)

/-- Without a line feed, a listing is read as the list of what its items stand for. -/
theorem read_listing {name : Name} {items : List Tree} (hline : '\n' ∉ listing name items) :
    read (String.ofList (listing name items)) =
      .ok (some (.result ⟨.done, String.ofList (listing name items),
        some (.tuple [(String.ofList name.text, .list (itemValues items))])⟩)) := by
  have hsplit : splitHead? ("done".toList ++ ',' :: (Tree.bare name (.brackets items)).text) =
      some ("done".toList, some (Tree.bare name (.brackets items)).text) :=
    splitHead?_append (.result .done (by decide)) (mt lineFeed_mem_listing.mpr hline)
  have hentries : readEntries (Tree.bare name (.brackets items)).text =
      .ok [(String.ofList name.text, .list (itemValues items))] := by
    refine readEntries_eq_ok_iff.mpr ⟨[(name, .brackets items)], ?_, ?_⟩
    · simp [resultsText, resultTexts]
    · rw [namedValues, Tree.value, namedValues]
      rfl
  rw [read_listing_eq]
  show (readResult _ _).map (some ∘ result) = _
  simp only [readResult, readHead, hsplit, hentries]
  rfl

/-- A line feed breaks the head of the record. -/
theorem read_listing_of_lineFeed {name : Name} {items : List Tree}
    (hline : '\n' ∈ listing name items) :
    read (String.ofList (listing name items)) =
      .error (.ofLine "malformed record header" (listing name items) 1) := by
  have hsplit : splitHead? ("done".toList ++ ',' :: (Tree.bare name (.brackets items)).text) =
      none :=
    splitHead?_of_lineFeed (.result .done (by decide)) (lineFeed_mem_listing.mp hline)
  rw [read_listing_eq]
  show (readResult _ _).map (some ∘ result) = _
  simp only [readResult, readHead, hsplit]
  rfl

/-! ## Whole listings -/

/-- The answer to a request for the stack. -/
def stackListing (listed : List (List (Name × Tree))) : String :=
  String.ofList (listing (nameOf "stack" rfl)
    (listed.map fun results => .bare (nameOf "frame" rfl) (.braces results)))

/-- The answer to a request for the variables of a frame. -/
def localsListing (listed : List (List (Name × Tree))) : String :=
  String.ofList (listing (nameOf "locals" rfl) (listed.map .braces))

theorem itemValues_eq_map (items : List Tree) : itemValues items = items.map Tree.value := by
  induction items with
  | nil => rfl
  | cons item rest ih => rw [itemValues, ih, List.map_cons]

/-- A view that gives back each of the things described leaves none of them out. -/
theorem filterMap_eq_of_forall₂ {α β : Type} {view : β → Option α} {meant : List α}
    {described : List β}
    (h : List.Forall₂ (fun thing description => view description = some thing) meant described) :
    described.filterMap view = meant := by
  induction h with
  | nil => rfl
  | cons hfirst _ ih => rw [List.filterMap_cons_some hfirst, ih]

theorem frames_of_described {frames : List Frame} {listed : List (List (Name × Tree))}
    (h : List.Forall₂ Frame.DescribedBy frames listed)
    (raw : String) :
    Outcome.frames ⟨.done, raw, some (.tuple [("stack", .list (itemValues
      (listed.map fun results => .bare (nameOf "frame" rfl) (.braces results))))])⟩ = frames := by
  show List.filterMap _ (itemValues _) = _
  rw [itemValues_eq_map, List.map_map, List.filterMap_map]
  apply filterMap_eq_of_forall₂
  refine h.imp fun frame results hitem => ?_
  have hview := hitem.ofValue?_eq
  simpa [Tree.value, get?, asTuple?, Entries.find?, nameOf] using hview

theorem locals_of_described {locals : List Variable} {listed : List (List (Name × Tree))}
    (h : List.Forall₂ Variable.DescribedBy locals listed)
    (raw : String) :
    Outcome.locals ⟨.done, raw,
      some (.tuple [("locals", .list (itemValues (listed.map .braces)))])⟩ = locals := by
  show List.filterMap _ (itemValues _) = _
  rw [itemValues_eq_map, List.map_map, List.filterMap_map]
  apply filterMap_eq_of_forall₂
  refine h.imp fun described results hitem => ?_
  have hview := hitem.ofValue?_eq
  simpa [Tree.value] using hview

/-- A listing is read unless it has a line feed. -/
theorem read_listing_iff {name : Name} {items : List Tree} {holds : Outcome → Prop}
    (h : ∀ raw, holds ⟨.done, raw,
      some (.tuple [(String.ofList name.text, .list (itemValues items))])⟩) :
    (∃ outcome, read (String.ofList (listing name items)) = .ok (some (.result outcome)) ∧
      outcome.status = .done ∧ holds outcome) ↔ '\n' ∉ listing name items := by
  constructor
  · rintro ⟨outcome, hread, -⟩ hline
    rw [read_listing_of_lineFeed hline] at hread
    cases hread
  · intro hline
    exact ⟨_, read_listing hline, rfl, h _⟩

/-- A frame whose function has a line feed in its name, which is properly escaped, is described by
a line that is no record. -/
theorem listing_refused_at_line_feed :
    read "^done,stack=[frame=\x7bfunc=\"a\nb\"\x7d]" =
      .error (.ofLine "malformed record header"
        "^done,stack=[frame=\x7bfunc=\"a\nb\"\x7d]".toList 1) ∧
    ¬ ∀ (frames : List Frame) (listed : List (List (Name × Tree))),
      List.Forall₂ Frame.DescribedBy frames listed →
      ∃ outcome, read (stackListing listed) = .ok (some (.result outcome)) ∧
        outcome.status = .done ∧ outcome.frames = frames := by
  let frame : Frame := ⟨none, none, some "a\nb", none, none, none⟩
  let results : List (Name × Tree) := [(nameOf "func" rfl,
    .quoted [.plain 'a' (by decide), .plain '\n' (by decide), .plain 'b' (by decide)])]
  have hline : stackListing [results] = "^done,stack=[frame=\x7bfunc=\"a\nb\"\x7d]" := by rfl
  have hread : read (stackListing [results]) = .error (.ofLine "malformed record header"
      "^done,stack=[frame=\x7bfunc=\"a\nb\"\x7d]".toList 1) :=
    read_listing_of_lineFeed (by decide)
  refine ⟨hline ▸ hread, fun hclaim => ?_⟩
  have hfits : frame.Fits := ⟨nofun, nofun⟩
  have hshows : Shows frame.fields results := .of_eq (by rfl)
  obtain ⟨outcome, hfound, -⟩ := hclaim [frame] [results] (.cons ⟨hfits, hshows⟩ .nil)
  rw [hread] at hfound
  cases hfound

/-- **A listing holds all that was described.**  Where a list of frames is listed, the outcome is
done and its frames are exactly these, unless a text in the line has a line feed; where a list of
variables is listed, its locals are exactly these, unless there is a line feed.  Every frame and
every variable with escaped texts can be listed by its fields alone. -/
theorem listings_lose_nothing :
    (∀ (frames : List Frame) (listed : List (List (Name × Tree))),
      List.Forall₂ Frame.DescribedBy frames listed →
      ((∃ outcome, read (stackListing listed) = .ok (some (.result outcome)) ∧
        outcome.status = .done ∧ outcome.frames = frames) ↔
          '\n' ∉ (stackListing listed).toList)) ∧
    (∀ (locals : List Variable) (listed : List (List (Name × Tree))),
      List.Forall₂ Variable.DescribedBy locals listed →
      ((∃ outcome, read (localsListing listed) = .ok (some (.result outcome)) ∧
        outcome.status = .done ∧ outcome.locals = locals) ↔
          '\n' ∉ (localsListing listed).toList)) ∧
    (∀ frame : Frame, frame.AreEscaped → ∃ results,
      resultsText results = renderEntries (present frame.fields) ∧ Shows frame.fields results) ∧
    (∀ described : Variable, described.AreEscaped → ∃ results,
      resultsText results = renderEntries (present described.fields) ∧
        Shows described.fields results) := by
  refine ⟨fun frames listed hlisted => ?_, fun locals listed hlisted => ?_, fun frame h => ?_,
    fun described h => ?_⟩
  · rw [stackListing, String.toList_ofList]
    exact read_listing_iff (frames_of_described hlisted)
  · rw [localsListing, String.toList_ofList]
    exact read_listing_iff (locals_of_described hlisted)
  · exact exists_results_of_isEscaped frame.isName_of_mem_fields h.of_mem_fields
  · exact exists_results_of_isEscaped described.isName_of_mem_fields h.of_mem_fields

/-- Two frames, of which the second has more results than are looked at, two variables, of which
the second has no value, and what describes a frame and a variable by their fields alone. -/
theorem listings_lose_nothing_of_two :
    (∃ outcome,
      read ("^done,stack=[frame=\x7blevel=\"0\",func=\"main\"\x7d," ++
        "frame=\x7bargs=[],line=\"7\",args=\"x\",level=\"1\"\x7d]") =
          .ok (some (.result outcome)) ∧
      outcome.status = .done ∧
      outcome.frames = [⟨some 0, none, some "main", none, none, none⟩,
        ⟨some 1, none, none, none, none, some 7⟩]) ∧
    (∃ outcome,
      read "^done,locals=[\x7bvalue=\"1\",name=\"x\"\x7d,\x7bname=\"y\"\x7d]" =
        .ok (some (.result outcome)) ∧
      outcome.status = .done ∧ outcome.locals = [⟨"x", some "1"⟩, ⟨"y", none⟩]) ∧
    (∃ results, resultsText results = "file=\"a.c\",line=\"7\"".toList ∧
      Shows (Frame.fields ⟨none, none, none, some "a.c", none, some 7⟩) results) ∧
    (∃ results, resultsText results = "name=\"y\"".toList ∧
      Shows (Variable.fields ⟨"y", none⟩) results) := by
  obtain ⟨hframes, hlocals, hframe, hvariable⟩ := listings_lose_nothing
  let letter (c : Char) (h : c ≠ '"' ∧ c ≠ '\\') : Tree := .quoted [.plain c h]
  let main : List (Name × Tree) := [(nameOf "level" rfl, letter '0' (by decide)),
    (nameOf "func" rfl, .quoted [.plain 'm' (by decide), .plain 'a' (by decide),
      .plain 'i' (by decide), .plain 'n' (by decide)])]
  let caller : List (Name × Tree) := [(nameOf "args" rfl, .brackets []),
    (nameOf "line" rfl, letter '7' (by decide)), (nameOf "args" rfl, letter 'x' (by decide)),
    (nameOf "level" rfl, letter '1' (by decide))]
  let x : List (Name × Tree) := [(nameOf "value" rfl, letter '1' (by decide)),
    (nameOf "name" rfl, letter 'x' (by decide))]
  let y : List (Name × Tree) := [(nameOf "name" rfl, letter 'y' (by decide))]
  have hstack : List.Forall₂ Frame.DescribedBy
      [⟨some 0, none, some "main", none, none, none⟩, ⟨some 1, none, none, none, none, some 7⟩]
      [main, caller] := by
    refine .cons ⟨⟨?_, nofun⟩, .of_eq (by rfl)⟩ (.cons ⟨⟨?_, ?_⟩, .swap _ _ _⟩ .nil)
    all_goals (rintro _ ⟨⟩; decide)
  have hlisted : List.Forall₂ Variable.DescribedBy [⟨"x", some "1"⟩, ⟨"y", none⟩] [x, y] :=
    .cons (.swap _ _ _) (.cons (.of_eq (by rfl)) .nil)
  refine ⟨(hframes _ _ hstack).mpr (by decide), (hlocals _ _ hlisted).mpr (by decide), ?_, ?_⟩
  · exact hframe ⟨none, none, none, some "a.c", none, some 7⟩ (by simp [Frame.AreEscaped]; rfl)
  · exact hvariable ⟨"y", none⟩ ⟨rfl, nofun⟩

end Record

end DebugBridge
