import DebugBridge.Proofs.Bridge.Eviction
import DebugBridge.Proofs.Session.Closure

/-!
# The session in place

Between the two looks that a start takes at the place, other starts and stops come in between.  Still
no session that goes on is ever replaced by a start; and whoever has a session that is in place no
more, or has not got there, stops it.

## Strategy

* What was in place follows from the history (`occupant`), and a turn changes it by a deed of a caller
  or not at all (`Possible.kept`).
* A session that was put in place is there still, or was driven out since
  (`Possible.in_place_or_displaced`); who has driven it out, or has not put it in place, has stopped
  it when it is over (`Possible.cleared`, `Possible.started`), which leaves the session over
  (`Possible.hasStopped`).

## Main statements

* `Possible.kept`: how a session that goes on can lose its place.
* `no_session_is_orphaned`: who gets a place, and that all others are stopped.
-/

namespace DebugBridge.Bridge

open Session (Plan)

/-! ## Answers -/

/-- A result and a refusal never read the same. -/
theorem resultLine_ne_refusalLine (id : RequestId) (result : Json) (refusal : Refusal) :
    resultLine id result ≠ refusalLine (some id) refusal := by
  intro h
  have hchars := congrArg String.toList h
  simp only [resultLine, refusalLine, Response.toJson, ErrorResponse.toJson, Json.render,
    Json.write, Json.writeEntries, String.toList_ofList, Json.option, Option.map_some,
    Option.getD_some] at hchars
  simp [Json.quote, Json.escapeChar] at hchars

/-- A reply is a result exactly if the answer is one, and a refusal otherwise. -/
theorem reply_eq_iff (id : RequestId) (answer : Answer) :
    ((∃ result, reply (some id) answer = some (resultLine id result)) ↔
      ∃ result, answer = .ok result) ∧
    ((∃ refusal, reply (some id) answer = some (refusalLine (some id) refusal)) ↔
      ¬ ∃ result, answer = .ok result) := by
  cases answer with
  | ok result =>
      refine ⟨iff_of_true ⟨result, rfl⟩ ⟨result, rfl⟩, iff_of_false ?_ (not_not_intro ⟨result, rfl⟩)⟩
      rintro ⟨refusal, heq⟩
      exact resultLine_ne_refusalLine id result refusal (Option.some.inj heq)
  | error refusal =>
      refine ⟨iff_of_false ?_ nofun, iff_of_true ⟨refusal, rfl⟩ nofun⟩
      rintro ⟨result, heq⟩
      exact resultLine_ne_refusalLine id result refusal (Option.some.inj heq).symm

/-! ## Runs -/

/-- A caller has stopped a session, and the session is over. -/
structure Chronicle.HasStopped {isFile : String → Bool} (c : Chronicle isFile) (caller : Nat)
    (tenant : Tenant) : Prop where
  stopped : StoppedIn tenant (deedsOf caller c.history)
  phase : c.state.phase tenant.id = .exited

/-- A session loses its place to a caller that comes to stop it, or to have another one attached. -/
inductive Evicted {isFile : String → Bool} (c next : Chronicle isFile) (tenant : Tenant) : Prop
  | taken {caller : Nat} {errand : Errand} (herrand : c.errands[caller]? = some errand)
      (hstops : errand.Stops)
      (hhistory : next.history = c.history ++ [.did caller ⟨.take, some tenant⟩])
  | replaced {caller id : Nat} (herrand : c.errands[caller]? = some (.attach id))
      (hhistory : next.history = c.history ++ [.did caller ⟨.replace id, some tenant⟩])

/-- What identifies the answer to a caller. -/
def Chronicle.id? {isFile : String → Bool} (c : Chronicle isFile) (caller : Nat) :
    Option RequestId :=
  c.errands[caller]?.bind Errand.id?

/-- A deed of a caller that is of a session was done on it. -/
theorem on_of_isOfSession {history : History} (h : ∀ occurrence ∈ history, occurrence.IsOfSession)
    {n : Nat} {deed : Deed interface} (hdeed : deed ∈ deedsOf n history) :
    ∃ id act, deed.action = .on id act := by
  obtain ⟨occurrence, hmem, hdeed⟩ := List.mem_filterMap.mp hdeed
  have hof := h occurrence hmem
  cases occurrence with
  | happened => cases hdeed
  | did other done | gaveUp other done =>
      obtain ⟨-, heq⟩ := Option.ite_some_none_eq_some.mp hdeed
      cases heq
      exact hof

theorem not_houses_of_isOfSession {history : History}
    (h : ∀ occurrence ∈ history, occurrence.IsOfSession) (n : Nat) :
    ∀ deed ∈ deedsOf n history, ¬ deed.action.Houses := by
  intro deed hdeed hhouses
  obtain ⟨id, act, haction⟩ := on_of_isOfSession h hdeed
  rw [haction] at hhouses
  exact hhouses

theorem State.tenant?_of_lt {state : State} {id : Nat} (hplace : state.place = some id)
    (hid : id < state.members.length) : ∃ plan, state.tenant? = some ⟨id, plan⟩ := by
  refine ⟨state.members[id].plan, ?_⟩
  rw [State.tenant?, hplace, Option.bind_some, List.getElem?_eq_getElem hid]
  rfl

theorem State.lt_of_live {state : State} {id : Nat} (h : state.phase id ≠ .exited) :
    id < state.members.length := by
  refine Classical.byContradiction fun hnot => h ?_
  rw [State.phase, List.getElem?_eq_none (Nat.le_of_not_lt hnot)]
  rfl

theorem State.phase_of_session? {state : State} {id : Nat} {session : Session}
    (h : state.session? id = some session) : state.phase id = session.state.core.phase := by
  obtain ⟨member, hmember, rfl⟩ := Option.map_eq_some_iff.mp h
  rw [State.phase, hmember]
  rfl

/-- A session was driven out of its place. -/
def WasDisplaced (id : Nat) (history : History) : Prop :=
  ∃ n deed plan, deed ∈ deedsOf n history ∧ displaced? deed = some ⟨id, plan⟩

theorem WasDisplaced.append {id : Nat} {history : History} (h : WasDisplaced id history)
    (more : History) : WasDisplaced id (history ++ more) := by
  obtain ⟨n, deed, plan, hmem, hdisplaced⟩ := h
  refine ⟨n, deed, plan, ?_, hdisplaced⟩
  rw [deedsOf_append]
  exact List.mem_append_left _ hmem

section Runs

variable {isFile : String → Bool} {surroundings : Surroundings} {c next : Chronicle isFile}

theorem Possible.place_eq (h : Possible surroundings c) : c.state.place = occupant c.history :=
  h.foldl_eq State.place Occurrence.onPlace (fun _ _ hsame _ => hsame)
    (fun _ place haside => haside.onPlace place) fun hperform => perform_place hperform

theorem Possible.lt_of_mem_deedsOf (h : Possible surroundings c) {n : Nat} {deed : Deed interface}
    (hdeed : deed ∈ deedsOf n c.history) : n < c.system.callers.length := by
  refine Classical.byContradiction fun hnot => ?_
  rw [h.accounted.absent n (Nat.le_of_not_lt hnot)] at hdeed
  cases hdeed

/-- What a caller does belongs to its errand, and so does what it has done. -/
theorem Possible.belongs (h : Possible surroundings c) {n : Nat}
    {rest : Activity (Option String)} (hcaller : c.system.callers[n]? = some rest) :
    ∃ errand, c.errands[n]? = some errand ∧
      (∀ deed ∈ deedsOf n c.history, deed.action.BelongsTo errand) ∧
      rest.OnlyDoes (Action.BelongsTo errand) := by
  obtain ⟨errand, herrand, hleads⟩ := h.accounted.leads n rest hcaller
  exact ⟨errand, herrand, hleads.onlyDoes (errand.belongs surroundings)⟩

/-- How a session that goes on can lose its place. -/
theorem Possible.kept (h : Possible surroundings c) {turn : Turn} {id : Nat}
    (hturn : c.turn? surroundings turn = some next) (hplace : c.state.place = some id)
    (hlive : c.state.phase id ≠ .exited) :
    next.state.place = some id ∨ ∃ plan, Evicted c next ⟨id, plan⟩ := by
  cases Chronicle.shift_of_turn? hturn with
  | aside more hhistory hmore hsame => exact .inl (hsame.trans hplace)
  | @act caller reaction action rest answer hcaller hperform hhistory =>
      rcases perform_displaced hperform hplace with hkept | ⟨hdisplaced, haction⟩
      · exact .inl hkept
      · obtain ⟨plan, htenant⟩ := State.tenant?_of_lt hplace (State.lt_of_live hlive)
        obtain ⟨errand, herrand, -, hbelongs, -⟩ := h.belongs hcaller
        rw [htenant] at hdisplaced
        refine .inr ⟨plan, ?_⟩
        rcases haction hlive with rfl | ⟨other, rfl⟩
        · obtain rfl : answer = some ⟨id, plan⟩ := hdisplaced
          exact .taken herrand hbelongs hhistory
        · obtain rfl : answer = some ⟨id, plan⟩ := hdisplaced
          obtain rfl : errand = .attach other := hbelongs
          exact .replaced herrand hhistory

/-- A session that was made is there. -/
theorem Possible.lt_of_create (h : Possible surroundings c) {n id : Nat} {plan : Plan}
    (hcreate : ⟨.create plan, id⟩ ∈ deedsOf n c.history) : id < c.state.members.length := by
  induction h with
  | fresh => cases hcreate
  | @turn c next h turn hturn ih =>
      cases Chronicle.shift_of_turn? hturn with
      | aside more hhistory hmore hplace hbreakpoints hlength =>
          rw [hhistory, deedsOf_append] at hcreate
          refine Nat.lt_of_lt_of_le (ih ((List.mem_append.mp hcreate).resolve_right ?_)) hlength
          exact fun hmem => not_houses_of_isOfSession hmore n _ hmem trivial
      | act hcaller hperform hhistory =>
          rw [hhistory, deedsOf_append] at hcreate
          rcases List.mem_append.mp hcreate with hcreate | hcreate
          · exact Nat.lt_of_lt_of_le (ih hcreate) (perform_length_le hperform)
          · cases (mem_deedsOf_did.mp hcreate).2
            exact perform_create hperform

/-- Who has put a session in place has made it. -/
theorem Possible.created_of_settles (h : Possible surroundings c) {n id : Nat}
    (hsettles : Settles id (deedsOf n c.history)) :
    ∃ plan, ⟨.create plan, id⟩ ∈ deedsOf n c.history := by
  obtain ⟨phase, replaced, hmem⟩ := hsettles
  have hkeeps := h.accounted.keeps (fun errand => ⟨_, errand.placesOwn surroundings⟩) n
    fun _ _ => trivial
  obtain ⟨before, after, hdeeds⟩ := List.append_of_mem hmem
  rw [hdeeds] at hkeeps ⊢
  obtain ⟨plan, hcreate⟩ := Protocol.permits_of_keeps hkeeps id rfl
  exact ⟨plan, List.mem_append_left _ hcreate⟩

/-- A session that was put in place is there still, or was driven out since. -/
theorem Possible.in_place_or_displaced (h : Possible surroundings c) {n id : Nat}
    (hsettles : Settles id (deedsOf n c.history)) :
    c.state.place = some id ∨ WasDisplaced id c.history := by
  induction h with
  | fresh =>
      obtain ⟨_, _, hmem⟩ := hsettles
      cases hmem
  | @turn c next h turn hturn ih =>
      cases Chronicle.shift_of_turn? hturn with
      | aside more hhistory hmore hsame =>
          rw [hhistory, deedsOf_append] at hsettles
          have hearlier : Settles id (deedsOf n c.history) :=
            (settles_append.mp hsettles).resolve_right
              (not_settles (not_houses_of_isOfSession hmore n))
          rw [hhistory]
          exact (ih hearlier).imp hsame.trans fun hdisplaced => hdisplaced.append more
      | @act caller reaction action rest answer hcaller hperform hhistory =>
          rw [hhistory, deedsOf_append] at hsettles
          rw [hhistory]
          rcases settles_append.mp hsettles with hearlier | ⟨phase, replaced, hmem⟩
          · rcases ih hearlier with hplace | hdisplaced
            · refine (perform_displaced hperform hplace).imp_right fun ⟨hdisplaced, _⟩ => ?_
              obtain ⟨made, hcreate⟩ := h.created_of_settles hearlier
              obtain ⟨plan, htenant⟩ := State.tenant?_of_lt hplace (h.lt_of_create hcreate)
              refine ⟨caller, ⟨action, answer⟩, plan, ?_, hdisplaced.trans htenant⟩
              rw [deedsOf_append]
              exact List.mem_append_right _ (mem_deedsOf_did.mpr ⟨rfl, rfl⟩)
            · exact .inr (hdisplaced.append _)
          · cases (mem_deedsOf_did.mp hmem).2
            exact .inl (perform_place hperform)

/-- Who has stopped a session leaves it over. -/
theorem Possible.hasStopped (h : Possible surroundings c) {n : Nat} {tenant : Tenant}
    (hstopped : StoppedIn tenant (deedsOf n c.history)) : c.HasStopped n tenant := by
  refine ⟨hstopped, ?_⟩
  obtain ⟨before, closing, after, hdeeds, hstop⟩ := hstopped
  obtain ⟨-, ended, hended⟩ := (Session.stop_yields tenant.plan.config).of_leads hstop
  have hmem : ⟨.markExited, ended⟩ ∈
      deedsOf (.caller n) (historyOf tenant.id c.history) := by
    rw [h.deedsOf_historyOf, hdeeds]
    exact List.mem_append_left _ (List.mem_append_right _ hended)
  cases hsession : c.state.session? tenant.id with
  | some session =>
      rw [State.phase_of_session? hsession]
      exact ((h.lived hsession).heeds.hasEnded _ _ hmem).phase
  | none =>
      rw [h.lives.absent _ hsession] at hmem
      cases hmem

/-- An errand that is over has stopped every session that it has driven out. -/
theorem Possible.cleared (h : Possible surroundings c) {n : Nat}
    (hvalue : (c.system.value? n).isSome) {deed : Deed interface}
    (hdeed : deed ∈ deedsOf n c.history) {tenant : Tenant}
    (hdisplaced : displaced? deed = some tenant) : c.HasStopped n tenant := by
  obtain ⟨value, hvalue⟩ := Option.isSome_iff_exists.mp hvalue
  obtain ⟨errand, -, hleads⟩ := h.leads_of_value hvalue
  exact h.hasStopped ((errand.clears surroundings).of_leads hleads deed hdeed tenant hdisplaced)

/-- How a start was served that is over. -/
theorem Possible.startServed (h : Possible surroundings c) {n : Nat} {params : StartParams}
    (hasked : c.asked n = some (.start params)) {value : Option String}
    (hvalue : c.system.value? n = some value) :
    ∃ answer, value = reply (c.id? n) answer ∧
      StartServed surroundings (params.plan surroundings.environment) answer
        (deedsOf n c.history) := by
  obtain ⟨errand, herrand, hleads⟩ := h.leads_of_value hvalue
  rw [Chronicle.asked, herrand] at hasked
  rw [errand.program_of_ask? surroundings hasked] at hleads
  rw [Chronicle.id?, herrand]
  exact ((start_yields surroundings params).map _).of_leads hleads

end Runs

/-! ## Main result -/

/-- A caller has put the session in place that it made. -/
def Chronicle.HasSettled {isFile : String → Bool} (c : Chronicle isFile) (caller : Nat) : Prop :=
  ∃ plan id, ⟨.create plan, id⟩ ∈ deedsOf caller c.history ∧
    Settles id (deedsOf caller c.history)

/-- How a start that is over was served: it is answered by a result exactly if it has put its session
in place, and by a refusal otherwise; a session that it has made and not put in place is stopped. -/
structure Chronicle.Started {isFile : String → Bool} (c : Chronicle isFile) (caller : Nat)
    (value : Option String) : Prop where
  result_iff : ∀ id, c.id? caller = some id →
    ((∃ result, value = some (resultLine id result)) ↔ c.HasSettled caller)
  refusal_iff : ∀ id, c.id? caller = some id →
    ((∃ refusal, value = some (refusalLine (some id) refusal)) ↔ ¬ c.HasSettled caller)
  stopped : ∀ plan id, ⟨.create plan, id⟩ ∈ deedsOf caller c.history →
    ¬ Settles id (deedsOf caller c.history) → c.HasStopped caller ⟨id, plan⟩

section Runs

variable {isFile : String → Bool} {surroundings : Surroundings} {c : Chronicle isFile}

theorem Possible.started (h : Possible surroundings c) {n : Nat} {params : StartParams}
    (hasked : c.asked n = some (.start params)) {value : Option String}
    (hvalue : c.system.value? n = some value) : c.Started n value := by
  obtain ⟨answer, rfl, hserved⟩ := h.startServed hasked hvalue
  refine ⟨?_, ?_, ?_⟩
  · intro id hid
    rw [hid]
    exact (reply_eq_iff id answer).1.trans hserved.isOk_iff
  · intro id hid
    rw [hid]
    exact (reply_eq_iff id answer).2.trans (not_congr hserved.isOk_iff)
  · intro plan id hmade hnot
    exact h.hasStopped ((hserved.settles_or_stopped hmade).resolve_left hnot)

/-- When all callers are done, a session that one of them has made is in place, or over. -/
theorem Possible.in_place_or_exited (h : Possible surroundings c)
    (hdone : ∀ n < c.system.callers.length, (c.system.value? n).isSome) {n id : Nat} {plan : Plan}
    (hmade : ⟨.create plan, id⟩ ∈ deedsOf n c.history) :
    c.state.place = some id ∨ c.state.phase id = .exited := by
  have hvalue {m : Nat} {deed : Deed interface} (hdeed : deed ∈ deedsOf m c.history) :
      (c.system.value? m).isSome := hdone m (h.lt_of_mem_deedsOf hdeed)
  by_cases hsettles : Settles id (deedsOf n c.history)
  · refine (h.in_place_or_displaced hsettles).imp_right ?_
    rintro ⟨m, deed, plan, hdeed, hdisplaced⟩
    exact (h.cleared (hvalue hdeed) hdeed hdisplaced).phase
  · obtain ⟨value, hreturned⟩ := Option.isSome_iff_exists.mp (hvalue hmade)
    obtain ⟨rest, hcaller, -⟩ := Option.bind_eq_some_iff.mp hreturned
    obtain ⟨errand, herrand, hbelongs, -⟩ := h.belongs hcaller
    obtain ⟨params, hask⟩ := hbelongs _ hmade
    have hasked : c.asked n = some (.start params) := by
      rw [Chronicle.asked, herrand]
      exact hask
    exact .inr ((h.started hasked hreturned).stopped plan id hmade hsettles).phase

end Runs

/-- What is in place follows from what the callers have done.  A session that goes on loses its place
only to a caller that comes to stop it, or to have a session attached that was made elsewhere; and
whoever has driven out a session has stopped it when it is answered.  A start is answered by a result
exactly if it has put its session in place, and when it is answered its session is in place or was
stopped.  So when everybody has got an answer, a session that a start has made and that goes on is
the one in place. -/
theorem no_session_is_orphaned (isFile : String → Bool) (surroundings : Surroundings)
    (c : Chronicle isFile) (h : Possible surroundings c) :
    c.state.place = occupant c.history ∧
    (∀ turn next id, c.turn? surroundings turn = some next → c.state.place = some id →
      c.state.phase id ≠ .exited →
        next.state.place = some id ∨ ∃ plan, Evicted c next ⟨id, plan⟩) ∧
    (∀ caller deed tenant, (c.system.value? caller).isSome → deed ∈ deedsOf caller c.history →
      displaced? deed = some tenant → c.HasStopped caller tenant) ∧
    (∀ caller params value, c.asked caller = some (.start params) →
      c.system.value? caller = some value → c.Started caller value) ∧
    ((∀ caller < c.system.callers.length, (c.system.value? caller).isSome) →
      ∀ caller plan id, ⟨.create plan, id⟩ ∈ deedsOf caller c.history →
        c.state.phase id ≠ .exited → c.state.place = some id) := by
  refine ⟨h.place_eq, ?_, ?_, ?_, ?_⟩
  · intro turn next id hturn hplace hlive
    exact h.kept hturn hplace hlive
  · intro caller deed tenant hvalue hdeed hdisplaced
    exact h.cleared hvalue hdeed hdisplaced
  · intro caller params value hasked hvalue
    exact h.started hasked hvalue
  · intro hdone caller plan id hmade hlive
    exact (h.in_place_or_exited hdone hmade).resolve_right hlive

/-! ## Two starts and a stop -/

/-- The debugger of a session prints its prompt, and it is read. -/
def Turn.greets (id : Nat) : List Turn :=
  .happen (.on id (.print .output (.line "(gdb)"))) ::
    List.replicate 3 (.happen (.on id (.advance (.reader .output))))

/-- A caller starts a session, up to where it is to be put in place. -/
def Turn.starts (caller id : Nat) : List Turn :=
  Turn.acts caller 6 ++ greets id ++ Turn.acts caller 7 ++ prints id "^done" ++
    Turn.acts caller 8 ++ prints id "^done" ++ Turn.acts caller 3

/-- A caller stops a session whose debugger does not react to the command to quit. -/
def Turn.stops (caller : Nat) : List Turn :=
  Turn.acts caller 8 ++ [.expire caller none] ++ Turn.acts caller 5

/-- The host asks for a session, by a request with this number. -/
def Errand.starting (id : String) : Errand :=
  .line ("\x7b\"jsonrpc\":\"2.0\",\"id\":" ++ id ++ ",\"method\":\"session/start\"," ++
    "\"params\":\x7b\"elf_file\":\"a.out\"\x7d\x7d")

def Errand.stopping : Errand :=
  .line "\x7b\"jsonrpc\":\"2.0\",\"id\":3,\"method\":\"session/stop\"\x7d"

/-- A start that leaves everything to the environment. -/
def StartParams.plain : StartParams :=
  ⟨"a.out", none, none, none, none, none, false⟩

/-- Two starts find the place free, and the second to come up stops its session again; that of the
first is stopped when the host asks for it. -/
theorem no_session_is_orphaned_of_rivals : ∃ c : Chronicle fun _ => false, Possible .bare c ∧
    c.HasSettled 0 ∧ ¬ c.HasSettled 1 ∧ (∃ tenant, c.HasStopped 1 tenant) ∧
      ∃ tenant, c.HasStopped 2 tenant := by
  have hrun : (Chronicle.turns? .bare ({} : Chronicle fun _ => false)
      (List.flatten [[.errand (.starting "1"), .errand (.starting "2")], Turn.starts 0 0,
        Turn.starts 1 1, Turn.acts 0 1, Turn.acts 1 1, Turn.stops 1, [.errand .stopping],
        Turn.acts 2 1, Turn.stops 2, Turn.acts 2 1])).any (fun c => decide (
          (c.asked 0 = some (.start .plain) ∧ c.id? 0 = some (.number 1) ∧
            c.system.value? 0 = some (some (resultLine (.number 1)
              (.object [("session_id", .string ""), ("state", .string "ready")])))) ∧
          (c.asked 1 = some (.start .plain) ∧ c.id? 1 = some (.number 2) ∧
            c.system.value? 1 = some (some (refusalLine (some (.number 2)) alreadyRunning)) ∧
            ∃ deed ∈ deedsOf (1 : Nat) c.history,
              deed.action = Action.create (StartParams.plain.plan Surroundings.bare.environment)) ∧
          (c.system.value? 2).isSome ∧
            ∃ deed ∈ deedsOf (2 : Nat) c.history, (displaced? deed).isSome)) = true := by
    decide +kernel
  obtain ⟨c, hturns, hcheck⟩ := (Option.any_eq_true _ _).mp hrun
  obtain ⟨⟨hfirst, hfirstId, hfirstValue⟩, ⟨hsecond, hsecondId, hsecondValue, ⟨_, id⟩, hmade, rfl⟩,
    hstopValue, deed, hdeed, hdisplaced⟩ := of_decide_eq_true hcheck
  obtain ⟨tenant, hdisplaced⟩ := Option.isSome_iff_exists.mp hdisplaced
  have h := Possible.fresh.turns _ hturns
  obtain ⟨-, -, hcleared, hstarted, -⟩ := no_session_is_orphaned _ _ c h
  have hnot : ¬ c.HasSettled 1 :=
    ((hstarted 1 _ _ hsecond hsecondValue).refusal_iff _ hsecondId).mp ⟨_, rfl⟩
  have hstopped := (hstarted 1 _ _ hsecond hsecondValue).stopped _ id hmade fun hsettles =>
    hnot ⟨_, id, hmade, hsettles⟩
  refine ⟨c, h, ?_, hnot, ⟨_, hstopped⟩, tenant, ?_⟩
  · exact ((hstarted 0 _ _ hfirst hfirstValue).result_iff _ hfirstId).mp ⟨_, rfl⟩
  · exact hcleared 2 deed tenant hstopValue hdeed hdisplaced

end DebugBridge.Bridge
