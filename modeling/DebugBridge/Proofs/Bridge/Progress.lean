import DebugBridge.Proofs.Bridge.Tenancy
import DebugBridge.Proofs.Session.Progress

/-!
# Every line can come to its answer

The callers of a bridge wait for each other at the gates of its sessions only.  Who holds a gate does
nothing but on that session until it has released it, and never waits for a gate meanwhile, so it can
go on by itself.  A line from the host reaches only sessions that it has made or found, which are
there.  Hence each line can be brought to its answer by turns of the callers alone, whatever the
debuggers do or fail to do.

## Main statements

* `Possible.exists_release`: who holds the gate of a session can come to release it by itself.
* `Possible.exists_return`: a line from the host can come to its answer by turns of the callers.
-/

namespace DebugBridge.Bridge

open Session (Leg legOf)

/-! ## One session at a time -/

/-- On the way to a result a caller does nothing but on the session that it has called. -/
abbrev singly : Protocol interface where
  Stage := Legs
  Permits legs action := ∀ id, legs id ≠ .idle → ∃ act, action = .on id act
  Admits := Admits
  after := Legs.after

theorem onSession_singly {α : Type} {program : Session.Activity α} {id : Nat} {legs : Legs}
    {ends : α → Leg → Prop}
    (h : program.Follows (Session.course False fun _ => True) (legs id) ends)
    (hothers : ∀ other, id ≠ other → legs other = .idle) :
    (onSession id program).Follows singly legs fun value after =>
      ends value (after id) ∧ ∀ other, id ≠ other → after other = .idle := by
  induction program generalizing legs with
  | done value => exact ⟨h, hothers⟩
  | act action next ih =>
      refine ⟨?_, fun answer hanswer => ih answer ?_ fun other hne => ?_⟩
      · intro other hbusy
        by_cases hne : id = other
        · exact ⟨action, by rw [hne]⟩
        · exact absurd (hothers other hne) hbusy
      · have hid : singly.after legs (.on id action) answer id =
            (legs id).after action answer := if_pos rfl
        rw [hid]
        exact h.2 answer hanswer
      · exact (if_neg hne).trans (hothers other hne)

theorem Errand.callsSingly (surroundings : Surroundings) (errand : Errand) :
    (errand.program surroundings).Follows singly .idle fun _ legs => legs = .idle := by
  refine (errand.assembled surroundings).follows singly (· = .idle) ?_ ?_ rfl
  · rintro _ action rfl haction
    refine ⟨fun id hbusy => absurd rfl hbusy, fun answer => ?_⟩
    cases action with
    | on id action =>
        have hplain : action.IsPlain := haction
        funext other
        simp [Legs.after, Leg.after_of_not_steers hplain.not_steers, Legs.idle]
    | _ => rfl
  · rintro γ _ id config ends program rfl hprogram
    refine (onSession_singly (hprogram.conducts fun _ _ => trivial) fun _ _ => rfl).mono ?_
    rintro value legs ⟨⟨hid, -⟩, hothers⟩
    funext other
    by_cases hne : id = other
    · exact hne ▸ hid
    · exact hothers other hne

/-! ## Sessions that are there -/

/-- A deed was answered with a session. -/
def Presents (id : Nat) : Deed interface → Prop
  | ⟨.create _, made⟩ => made = id
  | ⟨.place _, .placed _ tenant?⟩ | ⟨.replace _, tenant?⟩ | ⟨.take, tenant?⟩
  | ⟨.current, tenant?⟩ => tenant?.map Tenant.id = some id
  | _ => False

/-- One of the deeds was answered with a session. -/
def Known (deeds : List (Deed interface)) (id : Nat) : Prop :=
  ∃ deed ∈ deeds, Presents id deed

theorem Known.append {deeds : List (Deed interface)} {id : Nat} (h : Known deeds id)
    (more : List (Deed interface)) : Known (deeds ++ more) id := by
  obtain ⟨deed, hmem, hpresents⟩ := h
  exact ⟨deed, List.mem_append_left _ hmem, hpresents⟩

theorem known_of_last {deeds : List (Deed interface)} {deed : Deed interface} {id : Nat}
    (h : Presents id deed) : Known (deeds ++ [deed]) id :=
  ⟨deed, List.mem_append_right _ List.mem_cons_self, h⟩

theorem State.lt_of_tenant? {state : State} {id : Nat}
    (h : state.tenant?.map Tenant.id = some id) : id < state.members.length := by
  obtain ⟨tenant, htenant, rfl⟩ := Option.map_eq_some_iff.mp h
  obtain ⟨id, -, hfound⟩ := Option.bind_eq_some_iff.mp htenant
  obtain ⟨member, hmember, rfl⟩ := Option.map_eq_some_iff.mp hfound
  exact (List.getElem?_eq_some_iff.mp hmember).1

/-- A session that an action is answered with is there. -/
theorem perform_presents {reaction : Option Fault} {action : Action} {state next : State}
    {answer : action.Answer} {id : Nat}
    (h : state.perform reaction action = some (next, answer))
    (hpresents : Presents id ⟨action, answer⟩) : id < next.members.length := by
  have hfound : state.tenant?.map Tenant.id = some id → id < state.members.length :=
    State.lt_of_tenant?
  cases action with
  | create plan =>
      obtain rfl : answer = id := hpresents
      exact perform_create h
  | replace | take | current =>
      cases h
      exact hfound hpresents
  | place other =>
      simp only [State.perform] at h
      split at h <;> cases h
      · exact hpresents.elim
      · exact hfound hpresents
  | _ => exact hpresents.elim

/-! ## Sessions that a line reaches -/

/-- Something is done only on a session that an earlier deed was answered with. -/
def Presented (deeds : List (Deed interface)) (action : Action) : Prop :=
  ∀ id act, action = .on id act → Known deeds id

section Presented

variable {β γ : Type} {deeds : List (Deed interface)} {id : Nat}

theorem onSession_presented {program : Session.Activity γ} {next : γ → Activity β}
    (h : Known deeds id)
    (hnext : ∀ value more, (next value).Follows (Protocol.ledger Presented) (deeds ++ more)
      fun _ _ => True) :
    (onSession id program >>= next).Follows (Protocol.ledger Presented) deeds
      fun _ _ => True := by
  refine (onSession_follows_ledger (Program.yields_leads program) deeds ?_).bind ?_
  · rintro more action other act heq
    cases heq
    exact h.append _
  · rintro value _ ⟨more, rfl, -⟩
    exact hnext value _

/-- What concerns no session may be done whatever was done before. -/
theorem perform_presented {action : Action} {next : action.Answer → Activity β}
    (haction : ∀ id act, action ≠ .on id act)
    (hnext : ∀ answer, (next answer).Follows (Protocol.ledger Presented)
      (deeds ++ [⟨action, answer⟩]) fun _ _ => True) :
    (perform action >>= next).Follows (Protocol.ledger Presented) deeds fun _ _ => True :=
  ⟨fun id act heq => absurd heq (haction id act), fun answer _ => hnext answer⟩

theorem performOn_presented {act : Session.Action} {next : act.Answer → Activity β}
    (h : Known deeds id)
    (hnext : ∀ answer, (next answer).Follows (Protocol.ledger Presented)
      (deeds ++ [⟨.on id act, answer⟩]) fun _ _ => True) :
    (perform (.on id act) >>= next).Follows (Protocol.ledger Presented) deeds fun _ _ => True := by
  refine ⟨?_, fun answer _ => hnext answer⟩
  rintro other _ heq
  cases heq
  exact h

theorem discard_presented {tenant? : Option Tenant} {next : Unit → Activity β}
    (h : ∀ tenant, tenant? = some tenant → Known deeds tenant.id)
    (hnext : ∀ more, (next ()).Follows (Protocol.ledger Presented) (deeds ++ more)
      fun _ _ => True) :
    (discard tenant? >>= next).Follows (Protocol.ledger Presented) deeds fun _ _ => True := by
  cases tenant? with
  | none => simpa [discard] using hnext []
  | some tenant => exact onSession_presented (h tenant rfl) fun _ => hnext

theorem start_presented (surroundings : Surroundings) (params : StartParams) :
    (start surroundings params).Follows (Protocol.ledger Presented) deeds fun _ _ => True := by
  refine perform_presented (by simp) fun live => ?_
  cases live with
  | true => trivial
  | false =>
      refine perform_presented (by simp) fun id => ?_
      have hknown : Known (deeds ++ [⟨.hasLiveSession, false⟩] ++
          [⟨.create (params.plan surroundings.environment), id⟩]) id := known_of_last rfl
      refine onSession_presented hknown fun started more => ?_
      have hlater := hknown.append more
      cases started with
      | error fault =>
          refine discard_presented ?_ fun _ => trivial
          rintro _ ⟨⟩
          exact hlater
      | ok =>
          refine perform_presented (by simp) fun placement => ?_
          cases placement with
          | occupied =>
              refine discard_presented ?_ fun _ => trivial
              rintro _ ⟨⟩
              exact hlater.append _
          | placed phase replaced =>
              refine discard_presented ?_ fun _ => trivial
              rintro _ ⟨⟩
              exact known_of_last rfl

theorem stop_presented : stop.Follows (Protocol.ledger Presented) deeds fun _ _ => True := by
  refine perform_presented (by simp) fun tenant? => ?_
  cases tenant? with
  | none => trivial
  | some tenant =>
      have hknown : Known (deeds ++ [⟨.take, some tenant⟩]) tenant.id := known_of_last rfl
      exact onSession_presented hknown fun _ more =>
        performOn_presented (hknown.append more) fun _ => trivial

theorem status_presented (surroundings : Surroundings) :
    (status surroundings).Follows (Protocol.ledger Presented) deeds fun _ _ => True := by
  refine perform_presented (by simp) fun tenant? => ?_
  cases tenant? with
  | none => trivial
  | some tenant =>
      have hknown : Known (deeds ++ [⟨.current, some tenant⟩]) tenant.id := known_of_last rfl
      exact performOn_presented hknown fun _ => performOn_presented (hknown.append _) fun _ =>
        performOn_presented ((hknown.append _).append _) fun _ => trivial

theorem withTenant_presented {program : Tenant → Activity Answer}
    (h : ∀ tenant more, Known more tenant.id →
      (program tenant).Follows (Protocol.ledger Presented) more fun _ _ => True) :
    (withTenant program).Follows (Protocol.ledger Presented) deeds fun _ _ => True := by
  refine perform_presented (by simp) fun tenant? => ?_
  cases tenant? with
  | none => trivial
  | some tenant => exact h tenant _ (known_of_last rfl)

theorem Ask.answer_presented (surroundings : Surroundings) (ask : Ask) :
    (ask.answer surroundings).Follows (Protocol.ledger Presented) deeds fun _ _ => True := by
  cases ask with
  | start params => exact start_presented surroundings params
  | stop => exact stop_presented
  | status => exact status_presented surroundings
  | call | command | settings | frames | locals =>
      exact withTenant_presented fun tenant more hknown =>
        onSession_presented hknown fun _ _ => trivial
  | insert breakpoint =>
      refine withTenant_presented fun tenant more hknown =>
        onSession_presented hknown fun outcome _ => ?_
      cases Outcome.decoder outcome.toJson.normal with
      | error e => trivial
      | ok decoded =>
          show Program.Follows _ (if decoded.isSuccess then _ else _) _ _
          split
          · exact perform_presented (by simp) fun _ => trivial
          · trivial
  | remove breakpoint =>
      exact withTenant_presented fun tenant more hknown =>
        onSession_presented hknown fun _ _ => perform_presented (by simp) fun _ => trivial

end Presented

theorem Errand.line_presented (surroundings : Surroundings) (text : String) :
    ((line text).program surroundings).Follows (Protocol.ledger Presented) [] fun _ _ => True := by
  rcases program_line surroundings text with ⟨ask, -, hprogram⟩ | ⟨answer, -, hprogram⟩
  · rw [hprogram]
    exact (ask.answer_presented surroundings).bind fun _ _ _ => trivial
  · rw [hprogram]
    trivial

/-! ## Turns of callers -/

section State

variable {state : State} {id : Nat}

theorem State.session?_of_lt (h : id < state.members.length) :
    ∃ session, state.session? id = some session := by
  refine ⟨state.members[id].session, ?_⟩
  rw [State.session?, List.getElem?_eq_getElem h]
  rfl

theorem withSession_of_session? {α : Type} {session : Session}
    {act : Session.State → Option (Session.State × α)} (h : state.session? id = some session) :
    state.withSession id (fun session => session.withState (act session.state)) =
      (act session.state).map fun (after, answer) =>
        (state.onSession id fun _ => { session with state := after }, answer) := by
  obtain ⟨member, hmember, rfl⟩ := Option.map_eq_some_iff.mp h
  cases hact : act member.session.state <;>
    simp [State.withSession, hmember, Session.withState, hact]

/-- An action can be concluded at any time, unless its session is not there or its gate is held. -/
theorem State.can_conclude {action : Action}
    (hon : ∀ id act, action = .on id act → ∃ session, state.session? id = some session ∧
      (act = .acquire none → session.state.core.gateHeld = false)) :
    (∃ next answer, state.perform none action = some (next, answer)) ∨
      state.perform none action = none ∧
        ∃ next answer, state.giveUp none action = some (next, answer) := by
  cases action with
  | on id act =>
      obtain ⟨session, hsession, hgate⟩ := hon id act rfl
      simp only [State.perform, State.giveUp, withSession_of_session? hsession]
      rcases session.state.can_conclude hgate
        with ⟨after, answer, hperform⟩ | ⟨hwait, after, answer, hgiveUp⟩
      · exact .inl ⟨_, answer, by rw [hperform]; rfl⟩
      · exact .inr ⟨by rw [hwait]; rfl, _, answer, by rw [hgiveUp]; rfl⟩
  | place id =>
      simp only [State.perform]
      split
      · exact .inl ⟨_, _, rfl⟩
      · exact .inl ⟨_, _, rfl⟩
  | _ => exact .inl ⟨_, _, rfl⟩

end State

section Runs

variable {isFile : String → Bool} {surroundings : Surroundings} {c next : Chronicle isFile}
  {n : Nat}

/-- A caller that need not wait for ever can take a turn. -/
theorem Chronicle.exists_turn {action : Action}
    {rest : action.Answer → Activity (Option String)}
    (hcaller : c.system.callers[n]? = some (.act action rest))
    (hon : ∀ id act, action = .on id act → ∃ session, c.state.session? id = some session ∧
      (act = .acquire none → session.state.core.gateHeld = false)) :
    ∃ (turn : Turn) (next : Chronicle isFile), turn.IsOf n ∧
      c.turn? surroundings turn = some next ∧ Chronicle.Moved (annals isFile) c n rest next :=
  Chronicle.exists_moved hcaller (State.can_conclude hon)

/-! ## The gates -/

/-- Where a caller is in its command on a session. -/
def Chronicle.leg (c : Chronicle isFile) (id n : Nat) : Leg :=
  legOf (.caller n) (historyOf id c.history)

theorem Possible.leg_eq (h : Possible surroundings c) (id n : Nat) :
    c.leg id n = courses.stageAfter .idle (deedsOf n c.history) id := by
  rw [Chronicle.leg, legOf, h.deedsOf_historyOf]
  exact (stageAfter_courses .idle _ id).symm

/-- Who has done nothing has not changed its leg. -/
theorem Possible.leg_congr (h : Possible surroundings c) (hnext : Possible surroundings next)
    (hdeeds : deedsOf n next.history = deedsOf n c.history) (id : Nat) :
    next.leg id n = c.leg id n := by
  rw [hnext.leg_eq, h.leg_eq, hdeeds]

/-- A caller that is about to wait for a gate does not hold it. -/
theorem Possible.leg_of_acquire (h : Possible surroundings c) {id : Nat} {limit : Option Nat}
    {rest : Bool → Activity (Option String)}
    (hcaller : c.system.callers[n]? = some (.act (.on id (.acquire limit)) rest)) :
    c.leg id n = .idle := by
  have hpermits : (c.leg id n).Permits False (.acquire limit) := h.legOf_permits hcaller
  revert hpermits
  cases c.leg id n with
  | idle => exact fun _ => rfl
  | _ => exact fun hpermits => absurd trivial hpermits

/-- A caller that has got its answer holds no gate. -/
theorem Possible.leg_of_done (h : Possible surroundings c) {value : Option String}
    (hcaller : c.system.callers[n]? = some (.done value)) (id : Nat) : c.leg id n = .idle := by
  obtain ⟨errand, -, hleads⟩ := h.accounted.leads n _ hcaller
  have hidle : courses.stageAfter .idle (deedsOf n c.history) = .idle :=
    hleads.follows (h.admits n) (errand.conducts surroundings)
  rw [h.leg_eq, hidle]
  rfl

/-- Where a caller is on its way to a result on a session, that session is there. -/
theorem Possible.session_of_busy (h : Possible surroundings c) {id : Nat}
    (hbusy : c.leg id n ≠ .idle) : ∃ session, c.state.session? id = some session := by
  refine Option.isSome_iff_exists.mp (Option.isSome_iff_ne_none.mpr fun hnone => hbusy ?_)
  rw [Chronicle.leg, h.lives.absent id hnone]
  rfl

/-- Who is on its way to a result on a session does nothing else, and the session is there. -/
theorem Possible.action_of_busy (h : Possible surroundings c) {id : Nat} {action : Action}
    {rest : action.Answer → Activity (Option String)}
    (hcaller : c.system.callers[n]? = some (.act action rest)) (hbusy : c.leg id n ≠ .idle) :
    ∃ act session, action = .on id act ∧ act ≠ .acquire none ∧
      c.state.session? id = some session := by
  have hpermits : singly.Permits (singly.stageAfter .idle (deedsOf n c.history)) action :=
    h.accounted.permits (fun e => ⟨_, e.callsSingly surroundings⟩) hcaller (h.admits n)
  obtain ⟨act, rfl⟩ := hpermits id (h.leg_eq id n ▸ hbusy)
  obtain ⟨session, hsession⟩ := h.session_of_busy hbusy
  refine ⟨act, session, rfl, ?_, hsession⟩
  rintro rfl
  exact hbusy (h.leg_of_acquire hcaller)

/-- A caller that holds the gate of a session can come to release it by itself. -/
theorem Possible.exists_release (h : Possible surroundings c) {rest : Activity (Option String)}
    (hcaller : c.system.callers[n]? = some rest) (id : Nat) :
    ∃ turns later, (∀ turn ∈ turns, turn.IsOf n) ∧
      c.turns? surroundings turns = some later ∧ later.leg id n = .idle ∧
      later.errands = c.errands ∧ ∀ m, n ≠ m →
        deedsOf m later.history = deedsOf m c.history ∧
          later.system.callers[m]? = c.system.callers[m]? := by
  induction rest generalizing c with
  | done value =>
      exact ⟨[], c, by simp, rfl, h.leg_of_done hcaller id, rfl, fun _ _ => ⟨rfl, rfl⟩⟩
  | act action rest ih =>
      by_cases hidle : c.leg id n = .idle
      · exact ⟨[], c, by simp, rfl, hidle, rfl, fun _ _ => ⟨rfl, rfl⟩⟩
      obtain ⟨act, session, rfl, hacquire, hsession⟩ := h.action_of_busy hcaller hidle
      have hon : ∀ other acting, Action.on id act = .on other acting →
          ∃ session, c.state.session? other = some session ∧
            (acting = .acquire none → session.state.core.gateHeld = false) := by
        rintro other acting heq
        cases heq
        exact ⟨session, hsession, fun heq => absurd heq hacquire⟩
      obtain ⟨turn, next, hturn, hnext, hmoved⟩ := Chronicle.exists_turn hcaller hon
      obtain ⟨answer, hgoesOn⟩ := hmoved.getElem?_eq hcaller
      obtain ⟨turns, later, hturns, hlater, hleg, herrands, hothers⟩ :=
        ih answer (h.turn turn hnext) hgoesOn
      refine ⟨turn :: turns, later, List.forall_mem_cons.mpr ⟨hturn, hturns⟩, ?_, hleg,
        herrands.trans hmoved.requests, fun m hne => ⟨?_, ?_⟩⟩
      · exact (foldlM_cons_of_eq_some hnext).trans hlater
      · exact (hothers m hne).1.trans (hmoved.others m hne)
      · exact (hothers m hne).2.trans (hmoved.getElem?_ne hne)

/-- Only one caller at a time is on its way to a result on a session. -/
theorem Possible.leg_of_other (h : Possible surroundings c) {id m : Nat}
    (hbusy : c.leg id m ≠ .idle) (hne : m ≠ n) : c.leg id n = .idle := by
  obtain ⟨session, hsession⟩ := h.session_of_busy hbusy
  have horderly := (h.lived hsession).orderly.of_not_idle hbusy
  exact horderly.1 (.caller n) (by simpa using hne)

/-- The gate of a session is free when no caller is on its way to a result there. -/
theorem Possible.gate_free (h : Possible surroundings c) {id : Nat} {session : Session}
    (hsession : c.state.session? id = some session) (hidle : ∀ m, c.leg id m = .idle) :
    session.state.core.gateHeld = false := by
  have hlived := h.lived hsession
  cases hlived.orderly with
  | free _ hgate => exact hgate
  | held holder hholds =>
      refine absurd ?_ hholds
      cases holder with
      | caller m => exact hidle m
      | reader | watcher => exact hlived.legOf_background (by simp)

/-- Before a caller waits for a gate without a limit, the gate can be brought to be free by turns of
the other callers. -/
theorem Possible.exists_free (h : Possible surroundings c) {id : Nat}
    {rest : Bool → Activity (Option String)}
    (hcaller : c.system.callers[n]? = some (.act (.on id (.acquire none)) rest)) :
    ∃ turns later, (∀ turn ∈ turns, ∃ m, turn.IsOf m) ∧
      c.turns? surroundings turns = some later ∧ later.errands = c.errands ∧
      later.system.callers[n]? = c.system.callers[n]? ∧ ∀ m, later.leg id m = .idle := by
  by_cases hheld : ∃ m, c.leg id m ≠ .idle
  · obtain ⟨m, hbusy⟩ := hheld
    have hne : m ≠ n := by
      rintro rfl
      exact hbusy (h.leg_of_acquire hcaller)
    obtain ⟨held, hholder⟩ : ∃ held, c.system.callers[m]? = some held := by
      refine Option.isSome_iff_exists.mp (Option.isSome_iff_ne_none.mpr fun hnone => hbusy ?_)
      have habsent : deedsOf m c.history = [] :=
        h.accounted.absent m (List.getElem?_eq_none_iff.mp hnone)
      rw [h.leg_eq, habsent]
      rfl
    obtain ⟨turns, later, hturns, hlater, hreleased, herrands, hothers⟩ :=
      h.exists_release hholder id
    refine ⟨turns, later, fun turn hturn => ⟨m, hturns turn hturn⟩, hlater, herrands,
      (hothers n hne).2, fun k => ?_⟩
    by_cases hsame : m = k
    · exact hsame ▸ hreleased
    · calc later.leg id k = c.leg id k := h.leg_congr (h.turns turns hlater) (hothers k hsame).1 id
        _ = .idle := h.leg_of_other hbusy hsame
  · refine ⟨[], c, by simp, rfl, rfl, rfl, fun m => ?_⟩
    exact Classical.byContradiction fun hbusy => hheld ⟨m, hbusy⟩

/-- Whatever a caller is about to do, it can be brought to where it need not wait for ever, by turns of
the other callers. -/
theorem Possible.exists_unhindered (h : Possible surroundings c) {action : Action}
    {rest : action.Answer → Activity (Option String)}
    (hcaller : c.system.callers[n]? = some (.act action rest)) :
    ∃ turns later, (∀ turn ∈ turns, ∃ m, turn.IsOf m) ∧
      c.turns? surroundings turns = some later ∧ later.errands = c.errands ∧
      later.system.callers[n]? = c.system.callers[n]? ∧
      ∀ id, action = .on id (.acquire none) → ∀ m, later.leg id m = .idle := by
  by_cases hacquire : ∃ id, action = .on id (.acquire none)
  · obtain ⟨id, rfl⟩ := hacquire
    obtain ⟨turns, later, hturns, hlater, herrands, hsame, hfree⟩ := h.exists_free hcaller
    refine ⟨turns, later, hturns, hlater, herrands, hsame, ?_⟩
    rintro other heq
    cases heq
    exact hfree
  · exact ⟨[], c, by simp, rfl, rfl, rfl, fun id heq => absurd ⟨id, heq⟩ hacquire⟩

/-! ## Lines -/

/-- A session that a deed was answered with is there. -/
theorem Possible.lt_of_known (h : Possible surroundings c) {id : Nat}
    (hknown : Known (deedsOf n c.history) id) : id < c.state.members.length := by
  obtain ⟨deed, hmem, hpresents⟩ := hknown
  induction h with
  | fresh => cases hmem
  | @turn c next h turn hturn ih =>
      cases Chronicle.shift_of_turn? hturn with
      | aside more hhistory hmore hplace hbreakpoints hlength =>
          rw [hhistory, deedsOf_append] at hmem
          rcases List.mem_append.mp hmem with hmem | hmem
          · exact Nat.lt_of_lt_of_le (ih hmem) hlength
          · obtain ⟨id, act, haction⟩ := on_of_isOfSession hmore hmem
            obtain ⟨action, answer⟩ := deed
            obtain rfl : action = .on id act := haction
            exact hpresents.elim
      | act hcaller hperform hhistory =>
          rw [hhistory, deedsOf_append] at hmem
          rcases List.mem_append.mp hmem with hmem | hmem
          · exact Nat.lt_of_lt_of_le (ih hmem) (perform_length_le hperform)
          · cases (mem_deedsOf_did.mp hmem).2
            exact perform_presents hperform hpresents

/-- A line only reaches sessions that are there. -/
theorem Possible.session_of_line (h : Possible surroundings c) {text : String} {id : Nat}
    {act : Session.Action} {rest : act.Answer → Activity (Option String)}
    (herrand : c.errands[n]? = some (.line text))
    (hcaller : c.system.callers[n]? = some (.act (.on id act) rest)) :
    ∃ session, c.state.session? id = some session := by
  obtain ⟨errand, hsome, hleads⟩ := h.accounted.leads n _ hcaller
  cases herrand.symm.trans hsome
  have hpresented : Presented ((Protocol.ledger Presented).stageAfter [] (deedsOf n c.history))
      (.on id act) :=
    (hleads.follows (fun _ _ => trivial) (Errand.line_presented surroundings text)).1
  rw [Protocol.stageAfter_ledger, List.nil_append] at hpresented
  exact State.session?_of_lt (h.lt_of_known (hpresented id act rfl))

/-- Whatever the host has asked for by a line, it can come to its answer by turns of the callers
alone. -/
theorem Possible.exists_return (h : Possible surroundings c) {text : String}
    {rest : Activity (Option String)} (herrand : c.errands[n]? = some (.line text))
    (hcaller : c.system.callers[n]? = some rest) :
    ∃ turns later value, (∀ turn ∈ turns, ∃ m, turn.IsOf m) ∧
      c.turns? surroundings turns = some later ∧ later.system.value? n = some value := by
  induction rest generalizing c with
  | done value =>
      exact ⟨[], c, value, by simp, rfl, System.value?_eq_some_iff.mpr hcaller⟩
  | act action rest ih =>
      obtain ⟨turns, middle, hturns, hmiddle, herrands, hsame, hfree⟩ := h.exists_unhindered hcaller
      have hpossible : Possible surroundings middle := h.turns turns hmiddle
      have hgoing := hsame.trans hcaller
      have hline : middle.errands[n]? = some (.line text) := by rw [herrands, herrand]
      have hon : ∀ id act, action = .on id act → ∃ session,
          middle.state.session? id = some session ∧
            (act = .acquire none → session.state.core.gateHeld = false) := by
        rintro id act rfl
        obtain ⟨session, hsession⟩ := hpossible.session_of_line hline hgoing
        refine ⟨session, hsession, ?_⟩
        rintro rfl
        exact hpossible.gate_free hsession (hfree id rfl)
      obtain ⟨turn, next, hturn, hnext, hmoved⟩ := Chronicle.exists_turn hgoing hon
      obtain ⟨answer, hgoesOn⟩ := hmoved.getElem?_eq hgoing
      have hstill : next.errands = middle.errands := hmoved.requests
      obtain ⟨more, later, value, hmore, hlater, hvalue⟩ :=
        ih answer (hpossible.turn turn hnext) (by rw [hstill, hline]) hgoesOn
      refine ⟨turns ++ turn :: more, later, value, ?_, ?_, hvalue⟩
      · exact List.forall_mem_append.mpr ⟨hturns, List.forall_mem_cons.mpr ⟨⟨n, hturn⟩, hmore⟩⟩
      · exact (foldlM_append_of_eq_some hmiddle).trans ((foldlM_cons_of_eq_some hnext).trans hlater)

end Runs

end DebugBridge.Bridge
