import DebugBridge.Proofs.Bridge.Methods
import DebugBridge.Proofs.Bridge.Progress
import DebugBridge.Proofs.Bridge.Replies

/-!
# One answer for each request

A line that spells no request is answered at once.  A request with an identifier gets one answer,
which carries the identifier; one without has the same effects and gets none.  A request whose method
is not known, whose parameters do not fit, or that finds no session in place, leaves everything as it
was.

## Strategy

* What a request has done when it is over is taken to its answer (`Request.answer_yields`): nothing,
  a look at the place that found nobody, or whatever a session is asked to do.  The line that the
  answer is sent as is read back (`tells_reply`).
* The run is taken back to the turn at which the caller looked (`Possible.exists_first`).
* Two requests that differ in their identifiers only are served by programs that differ in their
  values only (`Program.silent`), so that each run with the one is a run with the other
  (`Twin.turn`).

## Main statements

* `Possible.coded`: by which codes requests are refused, and that nothing has come of those.
* `Twin.turns`: requests for the same come to the same, whichever identifiers they have.
* `one_answer_per_request`: the above, for all lines.
-/

namespace DebugBridge

/-! ## Programs without their values -/

namespace Program

variable {I : Interface} {α β : Type}

/-- What a program does, whatever it ends with. -/
def silent (program : Program I α) : Program I Unit :=
  program >>= fun _ => pure ()

theorem silent_map (program : Program I α) (f : α → β) :
    (program >>= fun value => pure (f value)).silent = program.silent := by
  rw [silent, bind_assoc]
  rfl

theorem silent_eq_act {program : Program I α} {action : I.Action}
    {next : I.Answer action → Program I Unit} (h : program.silent = act action next) :
    ∃ rest, program = act action rest ∧ ∀ answer, (rest answer).silent = next answer := by
  cases program with
  | done value => cases h
  | act first rest =>
      cases h
      exact ⟨rest, rfl, fun _ => rfl⟩

theorem isSome_value?_silent (program : Program I α) :
    program.silent.value?.isSome = program.value?.isSome := by
  cases program <;> rfl

end Program

namespace Bridge

/-! ## Answers -/

/-- The code of an answer that is a refusal. -/
def code? : Answer → Option Int
  | .ok _ => none
  | .error refusal => some refusal.code

/-- An answer by which neither the request nor the lack of a session is refused. -/
def Ordinary (answer : Answer) : Prop :=
  ∀ code, code? answer = some code → code = -32603 ∨ code = -32001

theorem ordinary_ok (result : Json) : Ordinary (.ok result) := by
  simp [Ordinary, code?]

/-- What a deed has found in place, if it was to look for a session. -/
def found? : Deed interface → Option (Option Tenant)
  | ⟨.current, tenant?⟩ | ⟨.take, tenant?⟩ => some tenant?
  | _ => none

/-- A session was looked for first: nobody was there and nothing more was done, or somebody was
there. -/
inductive Sought : Answer → List (Deed interface) → Prop
  | inVain {look : Deed interface} (hlook : found? look = some none) :
      Sought (.error .noSession) [look]
  | found {look : Deed interface} {tenant : Tenant} {answer : Answer}
      {more : List (Deed interface)} (hlook : found? look = some (some tenant))
      (hanswer : Ordinary answer) : Sought answer (look :: more)

section Asks

variable {surroundings : Surroundings}

theorem StartServed.ordinary {plan : Session.Plan} {answer : Answer}
    {deeds : List (Deed interface)} (h : StartServed surroundings plan answer deeds) :
    Ordinary answer := by
  cases h with
  | settled => exact ordinary_ok _
  | declined | failed | crowdedOut =>
      intro code hcode
      cases hcode
      exact .inr rfl

theorem withTenant_sought {program : Tenant → Activity Answer}
    (h : ∀ tenant, (program tenant).Yields fun answer _ => Ordinary answer) :
    (withTenant program).Yields Sought := by
  intro tenant?
  cases tenant? with
  | none => exact .inVain rfl
  | some tenant => exact (h tenant).mono fun answer deeds hordinary => .found rfl hordinary

theorem ordinary_of_result {β : Type} (program : Activity β) (view : β → Json) :
    (program >>= fun value => pure (.ok (view value) : Answer)).Yields fun answer _ =>
      Ordinary answer := by
  refine (Program.yields_leads program).bind ?_
  intro value deeds _
  exact ordinary_ok _

theorem Ask.answer_sought {ask : Ask} (h : ask.NeedsSession) :
    (ask.answer surroundings).Yields Sought := by
  cases ask with
  | start | status => exact h.elim
  | call | command | settings | frames | locals =>
      exact withTenant_sought fun tenant => ordinary_of_result _ _
  | remove breakpoint =>
      refine withTenant_sought fun tenant => (Program.yields_leads _).bind ?_
      intro outcome deeds _ _
      exact ordinary_ok _
  | insert breakpoint =>
      refine withTenant_sought fun tenant => (Program.yields_leads _).bind ?_
      intro outcome deeds _
      cases Outcome.decoder outcome.toJson.normal with
      | error e =>
          intro code hcode
          cases hcode
          exact .inl rfl
      | ok decoded =>
          show Program.Yields (if decoded.isSuccess then _ else _) _
          split
          · exact fun _ => ordinary_ok _
          · exact ordinary_ok _
  | stop =>
      intro tenant?
      cases tenant? with
      | none => exact .inVain rfl
      | some tenant =>
          refine (onSession_yields tenant.id (Session.stop tenant.plan.config)).bind ?_
          intro _ deeds _ phase
          exact .found rfl (ordinary_ok _)

theorem Ask.answer_ordinary {ask : Ask} (h : ¬ ask.NeedsSession) :
    (ask.answer surroundings).Yields fun answer _ => Ordinary answer := by
  cases ask with
  | start params => exact (start_yields surroundings params).mono fun _ _ h => h.ordinary
  | status =>
      intro tenant?
      cases tenant? with
      | none => exact ordinary_ok _
      | some tenant => exact fun _ _ _ => ordinary_ok _
  | _ => exact absurd trivial h

/-! ## Requests -/

/-- What a request was answered, and what it has done for that. -/
inductive Request.Answered (request : Request) : Answer → List (Deed interface) → Prop
  | unknown (hmethod : request.method ∉ methods) :
      Answered request (.error (.unknownMethod request.method)) []
  | misfit (hmethod : request.method ∈ methods) (hmisfits : request.Misfits) (reason : String) :
      Answered request (.error (.badParams reason)) []
  | sought {answer : Answer} {deeds : List (Deed interface)} (hmethod : request.method ∈ methods)
      (hfits : ¬ request.Misfits) (hneeds : request.method ∉ freeMethods)
      (hsought : Sought answer deeds) : Answered request answer deeds
  | free {answer : Answer} {deeds : List (Deed interface)} (hmethod : request.method ∈ methods)
      (hfits : ¬ request.Misfits) (hfree : request.method ∈ freeMethods)
      (hordinary : Ordinary answer) : Answered request answer deeds

theorem Request.answer_yields (request : Request) :
    (request.answer surroundings).Yields request.Answered := by
  rw [Request.answer]
  have hreads := request.reads
  revert hreads
  cases Ask.read request.method request.params with
  | error refusal =>
      intro hreads
      cases hreads with
      | unknown hmethod => exact .unknown hmethod
      | misfit hmethod hmisfits reason => exact .misfit hmethod hmisfits reason
  | ok ask =>
      intro hreads
      cases hreads with
      | fits hmethod hfits hneeds =>
          by_cases hask : ask.NeedsSession
          · refine (Ask.answer_sought hask).mono fun answer deeds hsought => ?_
            exact .sought hmethod hfits (hneeds.mp hask) hsought
          · refine (Ask.answer_ordinary hask).mono fun answer deeds hordinary => ?_
            exact .free hmethod hfits (Classical.byContradiction fun hnot => hask (hneeds.mpr hnot))
              hordinary

end Asks

/-- Whether a request can be read, and takes a session in place. -/
structure Request.NeedsSession (request : Request) : Prop where
  known : request.method ∈ methods
  fits : ¬ request.Misfits
  needs : request.method ∉ freeMethods

section Answered

variable {request : Request} {answer : Answer} {deeds : List (Deed interface)} {code : Int}

theorem Ordinary.ne (h : Ordinary answer) (hcode : code ∈ [-32601, -32602, -32000]) :
    code? answer ≠ some code := by
  intro heq
  rcases h code heq with rfl | rfl <;> simp at hcode

theorem Sought.ne (h : Sought answer deeds) (hcode : code ∈ [-32601, -32602]) :
    code? answer ≠ some code := by
  cases h with
  | inVain =>
      rintro ⟨⟩
      simp [Refusal.code] at hcode
  | found _ hanswer => exact hanswer.ne (List.mem_append_left [-32000] hcode)

namespace Request.Answered

theorem unknown_iff (h : request.Answered answer deeds) :
    code? answer = some (-32601) ↔ request.method ∉ methods := by
  cases h with
  | unknown hmethod => exact iff_of_true rfl hmethod
  | misfit hmethod => exact iff_of_false (by simp [code?, Refusal.code]) (not_not_intro hmethod)
  | sought hmethod _ _ hsought => exact iff_of_false (hsought.ne (by simp)) (not_not_intro hmethod)
  | free hmethod _ _ hordinary => exact iff_of_false (hordinary.ne (by simp)) (not_not_intro hmethod)

theorem misfit_iff (h : request.Answered answer deeds) :
    code? answer = some (-32602) ↔ request.Misfits := by
  cases h with
  | unknown hmethod =>
      refine iff_of_false (by simp [code?, Refusal.code]) ?_
      rintro ⟨decoder, hdecoder, -⟩
      exact hmethod (Ask.decoder?_eq_some hdecoder).1
  | misfit _ hmisfits => exact iff_of_true rfl hmisfits
  | sought _ hfits _ hsought => exact iff_of_false (hsought.ne (by simp)) hfits
  | free _ hfits _ hordinary => exact iff_of_false (hordinary.ne (by simp)) hfits

theorem needsSession (h : request.Answered answer deeds) (hcode : code? answer = some (-32000)) :
    request.NeedsSession := by
  cases h with
  | unknown | misfit => simp [code?, Refusal.code] at hcode
  | sought hmethod hfits hneeds => exact ⟨hmethod, hfits, hneeds⟩
  | free _ _ _ hordinary => exact absurd hcode (hordinary.ne (by simp))

/-- A request that takes a session looks for it first, and its answer says whether nobody was
there. -/
theorem looks (h : request.Answered answer deeds) (hneeds : request.NeedsSession) :
    ∃ look more tenant?, deeds = look :: more ∧ found? look = some tenant? ∧
      (code? answer = some (-32000) ↔ tenant? = none) := by
  cases h with
  | unknown hmethod => exact absurd hneeds.known hmethod
  | misfit _ hmisfits => exact absurd hmisfits hneeds.fits
  | free _ _ hfree => exact absurd hfree hneeds.needs
  | sought _ _ _ hsought =>
      cases hsought with
      | inVain hlook => exact ⟨_, [], none, rfl, hlook, iff_of_true rfl rfl⟩
      | found hlook hanswer =>
          exact ⟨_, _, _, rfl, hlook, iff_of_false (hanswer.ne (by simp)) (by simp)⟩

/-- What is refused in such a way has done nothing, or looked in vain. -/
theorem deeds_of_refused (h : request.Answered answer deeds)
    (hcode : code ∈ [-32601, -32602, -32000]) (hanswer : code? answer = some code) :
    deeds = [] ∨ ∃ look, deeds = [look] ∧ found? look = some none := by
  cases h with
  | unknown | misfit => exact .inl rfl
  | free _ _ _ hordinary => exact absurd hanswer (hordinary.ne hcode)
  | sought _ _ _ hsought =>
      cases hsought with
      | inVain hlook => exact .inr ⟨_, rfl, hlook⟩
      | found _ hordinary => exact absurd hanswer (hordinary.ne hcode)

end Request.Answered

end Answered

/-! ## The turns of a caller -/

/-- Nobody can tell two states apart: the sessions, the one in place, the breakpoints and what was
pushed to the host are the same. -/
structure State.Same (before after : State) : Prop where
  members : after.members = before.members
  tenant? : after.tenant? = before.tenant?
  breakpoints : after.breakpoints = before.breakpoints
  pushed : after.pushed = before.pushed

/-- A turn of a caller has led from one chronicle to the next, on the way to a later one. -/
structure Took {isFile : String → Bool} (surroundings : Surroundings) (n : Nat)
    (before next later : Chronicle isFile) : Prop where
  possible : Possible surroundings before
  turn : ∃ turn, turn.IsOf n ∧ before.turn? surroundings turn = some next
  later : ∃ turns, next.turns? surroundings turns = some later

section Runs

variable {isFile : String → Bool} {surroundings : Surroundings} {c next before : Chronicle isFile}
  {n : Nat}

/-- What a caller finds by a turn is what is there, and when nobody is there, it changes nothing. -/
theorem Chronicle.exists_deed {turn : Turn} (h : turn.IsOf n)
    (hturn : c.turn? surroundings turn = some next) :
    ∃ deed, deedsOf n next.history = deedsOf n c.history ++ [deed] ∧
      ∀ tenant?, found? deed = some tenant? →
        c.state.tenant? = tenant? ∧ (tenant? = none → c.state.Same next.state) := by
  cases turn with
  | request | happen => exact h.elim
  | act caller reaction =>
      obtain rfl : caller = n := h
      obtain ⟨action, rest, state, answer, hcaller, hperform, rfl⟩ := Chronicle.act_of_turn? hturn
      refine ⟨⟨action, answer⟩, by simp, fun tenant? hfound => ?_⟩
      cases action with
      | current =>
          cases hperform
          cases hfound
          exact ⟨rfl, fun _ => ⟨rfl, rfl, rfl, rfl⟩⟩
      | take =>
          cases hperform
          cases hfound
          exact ⟨rfl, fun hnone => ⟨rfl, hnone.symm, rfl, rfl⟩⟩
      | _ => cases hfound
  | expire caller reaction =>
      obtain rfl : caller = n := h
      obtain ⟨action, rest, state, answer, hcaller, hwait, hgiveUp, rfl⟩ :=
        Chronicle.expire_of_turn? hturn
      refine ⟨⟨action, answer⟩, by simp, fun tenant? hfound => ?_⟩
      cases action with
      | on id action => cases hfound
      | _ => cases hgiveUp

theorem Took.exists_deed (h : Took surroundings n before next c) :
    ∃ deed more, deedsOf n c.history = deedsOf n before.history ++ deed :: more ∧
      ∀ tenant?, found? deed = some tenant? →
        before.state.tenant? = tenant? ∧ (tenant? = none → before.state.Same next.state) := by
  obtain ⟨turn, hof, hturn⟩ := h.turn
  obtain ⟨turns, hturns⟩ := h.later
  obtain ⟨deed, hdeed, hfound⟩ := Chronicle.exists_deed hof hturn
  obtain ⟨since, hsince⟩ := Chronicle.exists_history_of_turns? hturns
  refine ⟨deed, deedsOf n since, ?_, hfound⟩
  rw [hsince, deedsOf_append, hdeed, List.append_assoc, List.singleton_append]

/-- Who has done something has taken a first turn. -/
theorem Possible.exists_first (h : Possible surroundings c) (hdeeds : deedsOf n c.history ≠ []) :
    ∃ before next, Took surroundings n before next c ∧ deedsOf n before.history = [] := by
  induction h with
  | fresh => exact absurd rfl hdeeds
  | @turn c next h turn hturn ih =>
      by_cases hearlier : deedsOf n c.history = []
      · have hof : turn.IsOf n := by
          refine Classical.byContradiction fun hnot => hdeeds ?_
          exact (Chronicle.deedsOf_of_turn? hturn hnot).trans hearlier
        exact ⟨c, next, ⟨h, ⟨turn, hof, hturn⟩, [], rfl⟩, hearlier⟩
      · obtain ⟨before, after, htook, hfirst⟩ := ih hearlier
        obtain ⟨turns, hturns⟩ := htook.later
        refine ⟨before, after, ⟨htook.possible, htook.turn, turns ++ [turn], ?_⟩, hfirst⟩
        exact (foldlM_append_of_eq_some hturns).trans (foldlM_cons_of_eq_some hturn)

end Runs

/-! ## Codes -/

/-- By which code a request was refused, if it was: its method is not known, or its parameters do not
fit, or nobody was in place when its caller did the first thing.  In these cases the turns of the
caller have changed nothing. -/
structure Coded {isFile : String → Bool} (surroundings : Surroundings) (c : Chronicle isFile)
    (n : Nat) (request : Request) (answer : Answer) : Prop where
  unknown_iff : code? answer = some (-32601) ↔ request.method ∉ methods
  misfit_iff : code? answer = some (-32602) ↔ request.Misfits
  needsSession : code? answer = some (-32000) → request.NeedsSession
  looks : request.NeedsSession → ∃ before next, Took surroundings n before next c ∧
    deedsOf n before.history = []
  vacant_iff : request.NeedsSession → ∀ before next, Took surroundings n before next c →
    deedsOf n before.history = [] →
      (code? answer = some (-32000) ↔ before.state.tenant? = none)
  untouched : ∀ code ∈ [-32601, -32602, -32000], code? answer = some code →
    ∀ before next, Took surroundings n before next c → before.state.Same next.state

section Runs

variable {isFile : String → Bool} {surroundings : Surroundings} {c next other : Chronicle isFile}
  {n : Nat}

theorem Possible.coded (h : Possible surroundings c) {request : Request} {answer : Answer}
    (hanswered : request.Answered answer (deedsOf n c.history)) :
    Coded surroundings c n request answer where
  unknown_iff := hanswered.unknown_iff
  misfit_iff := hanswered.misfit_iff
  needsSession := hanswered.needsSession
  looks hneeds := by
    obtain ⟨look, more, _, hdeeds, -⟩ := hanswered.looks hneeds
    exact h.exists_first (by simp [hdeeds])
  vacant_iff hneeds before next htook hfirst := by
    obtain ⟨look, _, tenant?, hlooked, hfound, hcode⟩ := hanswered.looks hneeds
    obtain ⟨deed, more, hdeeds, hthere⟩ := htook.exists_deed
    rw [hfirst, hlooked] at hdeeds
    obtain ⟨rfl, -⟩ := List.cons.inj hdeeds
    rw [hcode, (hthere tenant? hfound).1]
  untouched code hcode hanswer before next htook := by
    obtain ⟨deed, more, hdeeds, hthere⟩ := htook.exists_deed
    rcases hanswered.deeds_of_refused hcode hanswer with hnothing | ⟨look, hlooked, hfound⟩
    · simp [hnothing] at hdeeds
    · rw [hlooked] at hdeeds
      have hlook : look = deed := by
        have hmem : deed ∈ [look] := hdeeds ▸ List.mem_append_right _ List.mem_cons_self
        exact (List.mem_singleton.mp hmem).symm
      exact (hthere none (hlook ▸ hfound)).2 rfl

end Runs

/-! ## Requests that differ in their identifiers -/

/-- The same turn, or two requests for the same, of which each may have an identifier or not. -/
inductive Turn.Alike : Turn → Turn → Prop
  | same (turn : Turn) : Alike turn turn
  | line {text other : String} {request twin : Request}
      (hread : Request.read? text = some request) (hother : Request.read? other = some twin)
      (hmethod : twin.method = request.method) (hparams : twin.params = request.params) :
      Alike (.errand (.line text)) (.errand (.line other))

/-- Two chronicles of the same, in which callers only differ in the answers that they come to. -/
structure Twin {isFile : String → Bool} (c other : Chronicle isFile) : Prop where
  state : other.state = c.state
  history : other.history = c.history
  callers : other.system.callers.map Program.silent = c.system.callers.map Program.silent

/-- A line that spells a request is served by the program of that. -/
theorem Errand.program_of_read? {text : String} {request : Request} (surroundings : Surroundings)
    (h : Request.read? text = some request) : (line text).program surroundings =
      do return reply request.id (← request.answer surroundings) := by
  have hnot : Text.isAllBlank text = false := by
    refine Bool.eq_false_iff.mpr fun hblank => ?_
    cases h.symm.trans (Request.read?_eq_none_of_blank hblank)
  simp [program, serve, hnot, handleLine, h]

/-- Which identifier a request has makes no difference to what its program does. -/
theorem silent_program_eq {text other : String} {request twin : Request}
    (surroundings : Surroundings) (hread : Request.read? text = some request)
    (hother : Request.read? other = some twin) (hmethod : twin.method = request.method)
    (hparams : twin.params = request.params) :
    ((Errand.line other).program surroundings).silent =
      ((Errand.line text).program surroundings).silent := by
  have hanswer : twin.answer surroundings = request.answer surroundings := by
    simp only [Request.answer, hmethod, hparams]
  rw [Errand.program_of_read? surroundings hread, Errand.program_of_read? surroundings hother,
    hanswer, Program.silent_map, Program.silent_map]

section Runs

variable {isFile : String → Bool} {surroundings : Surroundings} {c next other : Chronicle isFile}
  {n : Nat}

namespace Twin

theorem refl (c : Chronicle isFile) : Twin c c :=
  ⟨rfl, rfl, rfl⟩

theorem getElem?_callers (h : Twin c other) (n : Nat) :
    other.system.callers[n]?.map Program.silent = c.system.callers[n]?.map Program.silent := by
  rw [← List.getElem?_map, h.callers, List.getElem?_map]

/-- The same callers have come to their answers. -/
theorem isSome_value? (h : Twin c other) (n : Nat) :
    (other.system.value? n).isSome = (c.system.value? n).isSome := by
  have hsilent (caller? : Option (Activity (Option String))) :
      (caller?.bind Program.value?).isSome =
        ((caller?.map Program.silent).bind Program.value?).isSome := by
    cases caller? with
    | none => rfl
    | some program => exact program.isSome_value?_silent.symm
  rw [System.value?, System.value?, hsilent, hsilent, h.getElem?_callers]

/-- The callers do the same next. -/
theorem exists_caller (h : Twin c other) {action : Action}
    {rest : action.Answer → Activity (Option String)}
    (hcaller : c.system.callers[n]? = some (.act action rest)) :
    ∃ following : action.Answer → Activity (Option String),
      other.system.callers[n]? = some (.act action following) ∧
        ∀ answer, (following answer).silent = (rest answer).silent := by
  have hsame := h.getElem?_callers n
  rw [hcaller] at hsame
  obtain ⟨program, hother, hsilent⟩ := Option.map_eq_some_iff.mp hsame
  obtain ⟨following, rfl, hfollowing⟩ := Program.silent_eq_act hsilent
  exact ⟨following, hother, hfollowing⟩

/-- A caller has done the same on both sides. -/
theorem resume (h : Twin c other) {program twin : Activity (Option String)} (state : State)
    (more : History) (hsilent : twin.silent = program.silent) :
    Twin
      ({ c with
          system := ⟨state, c.system.callers.set n program⟩
          history := c.history ++ more } : Chronicle isFile)
      { other with
        system := ⟨state, other.system.callers.set n twin⟩
        history := other.history ++ more } where
  state := rfl
  history := by rw [h.history]
  callers := by rw [List.map_set, List.map_set, hsilent, h.callers]

theorem enter (h : Twin c other) {first second : Errand}
    (hsilent : (second.program surroundings).silent = (first.program surroundings).silent)
    (hturn : c.turn? surroundings (.errand first) = some next) :
    ∃ later, other.turn? surroundings (.errand second) = some later ∧ Twin next later := by
  cases hturn
  refine ⟨_, rfl, h.state, ?_, ?_⟩
  · simp [Chronicle.occurrences, h.history]
  · simp [hsilent, h.callers]

theorem act {reaction : Option Fault} (h : Twin c other)
    (hturn : c.turn? surroundings (.act n reaction) = some next) :
    ∃ later, other.turn? surroundings (.act n reaction) = some later ∧ Twin next later := by
  obtain ⟨action, rest, state, answer, hcaller, hperform, rfl⟩ := Chronicle.act_of_turn? hturn
  obtain ⟨following, hother, hsilent⟩ := h.exists_caller hcaller
  have hsame : other.system.state = c.system.state := h.state
  exact ⟨_, Chronicle.turn?_act hother (hsame ▸ hperform), h.resume state _ (hsilent answer)⟩

theorem expire {reaction : Option Fault} (h : Twin c other)
    (hturn : c.turn? surroundings (.expire n reaction) = some next) :
    ∃ later, other.turn? surroundings (.expire n reaction) = some later ∧ Twin next later := by
  obtain ⟨action, rest, state, answer, hcaller, hwait, hgiveUp, rfl⟩ :=
    Chronicle.expire_of_turn? hturn
  obtain ⟨following, hother, hsilent⟩ := h.exists_caller hcaller
  have hsame : other.system.state = c.system.state := h.state
  exact ⟨_, Chronicle.turn?_expire hother (hsame ▸ hwait) (hsame ▸ hgiveUp),
    h.resume state _ (hsilent answer)⟩

theorem happen {happening : Happening} (h : Twin c other)
    (hturn : c.turn? surroundings (.happen happening) = some next) :
    ∃ later, other.turn? surroundings (.happen happening) = some later ∧ Twin next later := by
  obtain ⟨state, hhappen, rfl⟩ := Chronicle.happen_of_turn? hturn
  have hsame : other.system.state = c.system.state := h.state
  refine ⟨_, Chronicle.turn?_happen (hsame ▸ hhappen), rfl, ?_, h.callers⟩
  rw [h.history, hsame]

/-- Whatever turn is possible with one of two alike requests is possible with the other one, and
comes to the same. -/
theorem turn {turn twin : Turn} (h : Twin c other) (halike : turn.Alike twin)
    (hturn : c.turn? surroundings turn = some next) :
    ∃ later, other.turn? surroundings twin = some later ∧ Twin next later := by
  cases halike with
  | line hread hother hmethod hparams =>
      exact h.enter (silent_program_eq surroundings hread hother hmethod hparams) hturn
  | same =>
      cases turn with
      | request errand => exact h.enter rfl hturn
      | act => exact h.act hturn
      | expire => exact h.expire hturn
      | happen => exact h.happen hturn

theorem turns {turns twins : List Turn} (h : Twin c other)
    (halike : List.Forall₂ Turn.Alike turns twins)
    (hturns : c.turns? surroundings turns = some next) :
    ∃ later, other.turns? surroundings twins = some later ∧ Twin next later := by
  induction halike generalizing c other with
  | nil =>
      cases hturns
      exact ⟨other, rfl, h⟩
  | cons hfirst _ ih =>
      obtain ⟨middle, hturn, hrest⟩ := foldlM_cons_eq_some hturns
      obtain ⟨between, hbetween, hmiddle⟩ := h.turn hfirst hturn
      obtain ⟨later, hlater, htwin⟩ := ih hmiddle hrest
      refine ⟨later, ?_, htwin⟩
      exact (foldlM_cons_of_eq_some hbetween).trans hlater

end Twin

end Runs

/-! ## Main result -/

/-- A line that spells no request is answered at once by -32700, without an identifier.  One that
spells a request can always come to its answer, by turns of the callers alone; a request with an
identifier is then answered by one line, which tells that identifier and either a result or an
error, and one without is not answered.  It is refused by -32601 exactly if its method is not one of
the seventeen, by -32602 exactly if the method takes parameters and they are missing or do not
decode, and by -32000 exactly if neither is the case, the method needs a session, and none was in
place when its caller did the first thing; and in these cases nothing that its caller did has changed
anything.  Whatever run is possible with some requests is possible with requests for the same under
other identifiers, or without, and comes to the same. -/
theorem one_answer_per_request (isFile : String → Bool) (surroundings : Surroundings)
    (c : Chronicle isFile) (h : Possible surroundings c) :
    (∀ line, Request.read? line = none → ∃ (refusal : Refusal) (text : String),
      refusal.code = -32700 ∧ handleLine surroundings line = pure (some text) ∧
        Tells text none (.error refusal)) ∧
    (∀ line request, Request.read? line = some request →
      (Errand.line line).program surroundings = handleLine surroundings line) ∧
    (∀ n line request, c.errands[n]? = some (.line line) → Request.read? line = some request →
      (∃ turns later value, (∀ turn ∈ turns, ∃ m, turn.IsOf m) ∧
        c.turns? surroundings turns = some later ∧ later.system.value? n = some value) ∧
      ∀ value, c.system.value? n = some value →
        (∀ turns later, c.turns? surroundings turns = some later →
          later.system.value? n = some value) ∧
        (value = none ↔ request.id = none) ∧
        ∃ answer, Coded surroundings c n request answer ∧
          ∀ id, request.id = some id → ∃ text, value = some text ∧ Tells text (some id) answer) ∧
    ∀ turns twins, List.Forall₂ Turn.Alike turns twins →
      Chronicle.turns? surroundings {} turns = some c →
        ∃ twin : Chronicle isFile, Chronicle.turns? surroundings {} twins = some twin ∧
          twin.state = c.state ∧ twin.history = c.history ∧
          ∀ n, (twin.system.value? n).isSome = (c.system.value? n).isSome := by
  refine ⟨?_, ?_, ?_, ?_⟩
  · intro line hline
    refine ⟨.unreadable, _, rfl, ?_, tells_refusalLine (by simp) .unreadable⟩
    rw [handleLine, hline]
  · intro line request hline
    rw [Errand.program_of_read? surroundings hline, handleLine, hline]
  · intro n line request herrand hline
    refine ⟨?_, fun value hvalue => ⟨?_, ?_⟩⟩
    · obtain ⟨rest, hcaller, -⟩ := h.accounted.leads_of_request herrand
      exact h.exists_return herrand hcaller
    · exact fun turns later hturns => (Chronicle.rests_of_turns? hturns hvalue).1
    · obtain ⟨errand, hsame, hleads⟩ := h.leads_of_value hvalue
      cases herrand.symm.trans hsame
      rw [Errand.program_of_read? surroundings hline] at hleads
      obtain ⟨answer, rfl, hanswer⟩ :=
        ((Program.yields_leads (request.answer surroundings)).map _).of_leads hleads
      refine ⟨?_, answer, h.coded (request.answer_yields.of_leads hanswer), ?_⟩
      · rw [reply, Option.map_eq_none_iff]
      · intro id hid
        rw [hid]
        exact tells_reply (Request.fits_of_read? hline id hid)
          ((request.answer_whole surroundings).of_leads hanswer)
  · intro turns twins halike hturns
    obtain ⟨twin, htwin, hsame⟩ := (Twin.refl {}).turns halike hturns
    exact ⟨twin, htwin, hsame.state, hsame.history, hsame.isSome_value?⟩

/-- The host asks for a run, by a request with a number. -/
def runLine : String :=
  "\x7b\"jsonrpc\":\"2.0\",\"id\":7,\"method\":\"exec/run\"\x7d"

/-- The host asks for a run while no session is in place. -/
theorem one_answer_per_request_of_vacant :
    ∃ (c : Chronicle fun _ => false) (text : String) (answer : Answer), Possible .bare c ∧
      c.system.value? 0 = some (some text) ∧ Tells text (some (.number 7)) answer ∧
      code? answer = some (-32000) := by
  let before : Chronicle fun _ => false :=
    { requests := [.line runLine], system := ⟨{}, [(Errand.line runLine).program .bare]⟩ }
  have hbefore : Possible .bare before := Possible.fresh.turn (.errand (.line runLine)) rfl
  have hrequest : (Request.read? runLine).any (fun request =>
      decide (request.id = some (.number 7) ∧ request.method = "exec/run")) = true := by
    decide +kernel
  have hrun : (before.turn? .bare (.act 0 none)).any (fun c =>
      (c.system.value? 0).isSome) = true := by
    decide +kernel
  obtain ⟨request, hread, hcheck⟩ := (Option.any_eq_true _ _).mp hrequest
  obtain ⟨hid, hmethod⟩ := of_decide_eq_true hcheck
  obtain ⟨c, hturn, hover⟩ := (Option.any_eq_true _ _).mp hrun
  have h : Possible .bare c := hbefore.turn _ hturn
  obtain ⟨value, hvalue⟩ := Option.isSome_iff_exists.mp hover
  have herrand : c.errands[0]? = some (.line runLine) := by
    obtain ⟨_, _, _, _, -, -, rfl⟩ := Chronicle.act_of_turn? hturn
    rfl
  obtain ⟨-, hvalues⟩ := (one_answer_per_request _ _ c h).2.2.1 0 _ request herrand hread
  obtain ⟨-, -, answer, hcoded, htells⟩ := hvalues value hvalue
  obtain ⟨text, rfl, htold⟩ := htells _ hid
  have hneeds : request.NeedsSession := by
    refine ⟨by rw [hmethod]; decide, ?_, by rw [hmethod]; decide⟩
    rintro ⟨decoder, hdecoder, -⟩
    rw [hmethod] at hdecoder
    cases hdecoder
  have htook : Took .bare 0 before c c := ⟨hbefore, ⟨.act 0 none, rfl, hturn⟩, [], rfl⟩
  refine ⟨c, text, answer, h, hvalue, htold, ?_⟩
  exact (hcoded.vacant_iff hneeds before c htook rfl).mpr rfl

end Bridge

end DebugBridge
