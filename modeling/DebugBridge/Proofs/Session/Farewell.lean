import DebugBridge.Proofs.Session.Standing

/-!
# The command to quit

Whoever forbids commands asks the debugger to quit, if that is possible: it has got the gate in time,
the session has not ended, and, where commands and execution exclude each other, the target does not
execute.  Commands are forbidden by one caller only, so that the debugger is asked at most once.

## Strategy

* `quitting` is the protocol of a caller that writes the command to quit only in that situation.  Who
  asks for something that concerns the session as a whole keeps to it (`Request.quitting`).
* Commands can be forbidden only while they are possible, and then nobody opens the session again
  (`Possible.shut_of_disabled`).

## Main statements

* `Possible.disabler_unique`: one caller at most has found commands possible and has forbidden them.
* `Possible.quits_once`: when the command to quit is written, and that it was not written before.
-/

namespace DebugBridge.Session

/-! ## What the warm-up does not write -/

theorem take_toList_append {text : String} {count : Nat} (h : count ≤ text.toList.length)
    (rest : String) : (text ++ rest).toList.take count = text.toList.take count := by
  rw [String.toList_append, List.take_append_of_le_length h]

/-- How the commands of the warm-up begin. -/
theorem take_of_mem_warmUp {config : Config} {target : Target} {command : String}
    (h : command ∈ config.warmUp target) :
    command.toList.take 6 ∈ ["-enabl".toList, "-gdb-s".toList, "-targe".toList] := by
  simp only [Config.warmUp, List.mem_append, List.mem_singleton, Option.mem_toList,
    Option.map_eq_some_iff] at h
  rcases h with (((rfl | h) | rfl) | ⟨name, -, rfl⟩) | h
  · decide
  · split at h
    · cases List.mem_singleton.mp h
      decide
    · cases h
  · decide
  · rw [take_toList_append (by decide)]
    decide
  · cases target with
    | «local» => cases h
    | remote link extended =>
        rcases List.mem_append.mp h with h | h
        · cases link with
          | tcp => cases h
          | serial port baudRate =>
              cases baudRate with
              | none => cases h
              | some rate =>
                  cases List.mem_singleton.mp h
                  rw [take_toList_append (by decide)]
                  decide
        · cases List.mem_singleton.mp h
          rw [String.append_assoc, String.append_assoc, take_toList_append (by decide)]
          decide

/-- A command of the warm-up is written as it is. -/
theorem commandLine_of_mem_warmUp {config : Config} {target : Target} {command : String}
    (h : command ∈ config.warmUp target) : commandLine command [] = command := by
  have hne : command ≠ "" := by
    rintro rfl
    exact absurd (take_of_mem_warmUp h) (by decide)
  simp [commandLine, hne]

/-- The commands of the warm-up are other ones than those of a stop. -/
theorem ne_of_mem_warmUp {config : Config} {target : Target} {command : String}
    (h : command ∈ config.warmUp target) :
    command ≠ "-gdb-exit" ∧ command ≠ "-exec-interrupt" := by
  constructor
  · rintro rfl
    exact absurd (take_of_mem_warmUp h) (by decide)
  · rintro rfl
    exact absurd (take_of_mem_warmUp h) (by decide)

/-! ## The protocol of a stop -/

/-- What a caller does right before it writes the command to quit. -/
def lastSteps (config : Config) (ticket : Nat) : List (Deed interface) :=
  [⟨.acquire (some config.quitLimit), true⟩, ⟨.isExited, false⟩] ++
    (if config.asyncMode then [] else [⟨.claimTarget, true⟩]) ++ [⟨.arm, ticket⟩]

/-- The caller has found commands possible and has forbidden them; it has not written the command to
quit yet, and the next thing is to write it. -/
def ReadyToQuit (config : Config) (deeds : List (Deed interface)) : Prop :=
  ∃ before ticket, deeds = before ++ lastSteps config ticket ∧
    (⟨.disableCommands, true⟩ : Deed interface) ∈ before ∧
    ∀ deed ∈ before, deed.action ≠ .write "-gdb-exit"

/-- The command to quit is written only by those who are ready to. -/
abbrev quitting (config : Config) : Protocol interface :=
  Protocol.ledger fun deeds action => action = .write "-gdb-exit" → ReadyToQuit config deeds

section Quitting

variable {β γ : Type} {config : Config} {deeds : List (Deed interface)}

/-- A program that does not write the command to quit. -/
abbrev Stays (program : Activity β) : Prop :=
  program.OnlyDoes fun action : Action => action ≠ .write "-gdb-exit"

theorem Ordinary.stays {lines : String → Prop} {program : Activity β}
    (h : Ordinary lines program) (hlines : ¬ lines "-gdb-exit") : Stays program :=
  h.mono fun _ haction heq => hlines (haction.2 _ heq)

theorem Stays.follows {program : Activity β} (h : Stays program) (deeds : List (Deed interface)) :
    program.Follows (quitting config) deeds fun _ last =>
      ∃ more, last = deeds ++ more ∧ ∀ deed ∈ more, deed.action ≠ .write "-gdb-exit" :=
  h.follows_ledger (fun _ _ hother heq => absurd heq hother) deeds

theorem Stays.follows_end {program : Activity β} (h : Stays program)
    (deeds : List (Deed interface)) :
    program.Follows (quitting config) deeds fun _ _ => True :=
  (h.follows deeds).mono fun _ _ _ => trivial

theorem finish_stays : Stays finish :=
  finish_onlyDoes nofun nofun

theorem exchange_quitting (limit : Nat) (claimed : Bool)
    (hready : ∀ ticket, ReadyToQuit config (deeds ++ [⟨.arm, ticket⟩])) :
    (exchange "-gdb-exit" limit claimed).Follows (quitting config) deeds fun _ _ => True := by
  refine ⟨nofun, fun ticket _ => ⟨fun _ => hready ticket, fun fault _ => ?_⟩⟩
  cases fault with
  | some fault =>
      have hordinary : Ordinary (fun _ => False) (writeFault fault claimed) :=
        ordinary_writeFault fault claimed
      exact (hordinary.stays id).follows_end _
  | none => exact ⟨nofun, fun _ _ => ⟨nofun, fun _ _ => trivial⟩⟩

/-- Whoever has forbidden commands writes the command to quit when it is ready to. -/
theorem tryRunCommand_quitting (hdisabled : (⟨.disableCommands, true⟩ : Deed interface) ∈ deeds)
    (hstays : ∀ deed ∈ deeds, deed.action ≠ .write "-gdb-exit") :
    (tryRunCommand config "-gdb-exit" config.quitLimit).Follows (quitting config) deeds
      fun _ _ => True := by
  refine ⟨nofun, fun granted _ => ?_⟩
  cases granted with
  | false => trivial
  | true =>
      have hrelease (stage : List (Deed interface)) (outcome : Outcome) :
          (do perform .release
              return some outcome : Activity (Option Outcome)).Follows (quitting config) stage
            fun _ _ => True := ⟨nofun, fun _ _ => trivial⟩
      have hadmitted : (admitted config "-gdb-exit" config.quitLimit).Follows (quitting config)
          (deeds ++ [⟨.acquire (some config.quitLimit), true⟩]) fun _ _ => True := by
        refine ⟨nofun, fun exited _ => ?_⟩
        cases exited with
        | true => trivial
        | false =>
            show Program.Follows _ (if config.asyncMode then _ else _ : Activity Outcome) _ _
            split
            · rename_i hmode
              refine exchange_quitting _ _ fun ticket => ?_
              exact ⟨deeds, ticket, by simp [lastSteps, hmode], hdisabled, hstays⟩
            · rename_i hmode
              refine ⟨nofun, fun granted _ => ?_⟩
              cases granted with
              | true =>
                  refine exchange_quitting _ _ fun ticket => ?_
                  exact ⟨deeds, ticket, by simp [lastSteps, hmode], hdisabled, hstays⟩
              | false => exact ⟨nofun, fun _ _ => trivial⟩
      exact hadmitted.bind fun outcome stage _ => hrelease stage outcome

theorem quit_quitting (hdisabled : (⟨.disableCommands, true⟩ : Deed interface) ∈ deeds)
    (hstays : ∀ deed ∈ deeds, deed.action ≠ .write "-gdb-exit") :
    (quit config).Follows (quitting config) deeds fun _ _ => True := by
  have hrest {stage : List (Deed interface)}
      (hdisabled : (⟨.disableCommands, true⟩ : Deed interface) ∈ stage)
      (hstays : ∀ deed ∈ stage, deed.action ≠ .write "-gdb-exit") :
      (do let _ ← tryRunCommand config "-gdb-exit" config.quitLimit
          perform .closeInput
          perform .terminate : Activity Unit).Follows (quitting config) stage fun _ _ => True :=
    (tryRunCommand_quitting hdisabled hstays).bind fun _ _ _ =>
      ⟨nofun, fun _ _ => ⟨nofun, fun _ _ => trivial⟩⟩
  refine ⟨nofun, fun running _ => ?_⟩
  have hlooked : ∀ deed ∈ deeds ++ ([⟨.isRunning, running⟩] : List (Deed interface)),
      deed.action ≠ .write "-gdb-exit" := by
    simpa [or_imp, forall_and] using hstays
  cases running with
  | false => exact hrest (List.mem_append_left _ hdisabled) hlooked
  | true =>
      have hpause : Ordinary (Eq "-exec-interrupt") (pause config) := ordinary_pause rfl config
      refine ((hpause.stays (by decide)).follows _).bind ?_
      rintro _ _ ⟨more, rfl, hmore⟩
      refine hrest (List.mem_append_left _ (List.mem_append_left _ hdisabled)) ?_
      exact List.forall_mem_append.mpr ⟨hlooked, hmore⟩

theorem stop_quitting (hstays : ∀ deed ∈ deeds, deed.action ≠ .write "-gdb-exit") :
    (stop config).Follows (quitting config) deeds fun _ _ => True := by
  refine ⟨nofun, fun allowed _ => ?_⟩
  cases allowed with
  | false => exact finish_stays.follows_end _
  | true =>
      refine (quit_quitting (by simp) ?_).bind fun _ stage _ => finish_stays.follows_end stage
      simpa [or_imp, forall_and] using hstays

theorem bringUp_quitting {plan : Plan} (hstays : ∀ deed ∈ deeds, deed.action ≠ .write "-gdb-exit") :
    (bringUp plan).Follows (quitting plan.config) deeds fun _ _ => True := by
  have hcomeUp : Stays (comeUp plan) := by
    refine (ordinary_comeUp ?_ : Ordinary (· ≠ "-gdb-exit") (comeUp plan)).stays (by simp)
    intro command hcommand
    rw [commandLine_of_mem_warmUp hcommand]
    exact (ne_of_mem_warmUp hcommand).1
  refine ⟨by simp, fun gone _ => ?_⟩
  have hwatched : ∀ deed ∈ deeds ++ ([⟨.watchExit, gone⟩] : List (Deed interface)),
      deed.action ≠ .write "-gdb-exit" := by
    simpa [or_imp, forall_and] using hstays
  cases gone
  case' false => have hbefore := hwatched
  case' true =>
    refine (finish_stays.follows _).bind ?_
    rintro _ _ ⟨more, rfl, hmore⟩
    have hbefore := List.forall_mem_append.mpr ⟨hwatched, hmore⟩
  -- from here on it does not matter whether the debugger was gone
  all_goals
    refine ⟨by simp, fun _ _ => ?_⟩
    refine (hcomeUp.follows _).bind ?_
    rintro fault _ ⟨warming, rfl, hwarming⟩
    cases fault with
    | none => exact ⟨by simp, fun _ _ => trivial⟩
    | some fault =>
        refine (stop_quitting ?_).bind fun _ _ _ => trivial
        refine List.forall_mem_append.mpr ⟨?_, hwarming⟩
        simpa [or_imp, forall_and] using hbefore

end Quitting

/-- Who asks for something that concerns the session as a whole writes the command to quit only when
it is ready to. -/
theorem Request.quitting {request : Request} (h : request.Governs) (plan : Plan) :
    (request.program plan).Follows (Session.quitting plan.config) [] fun _ _ => True := by
  cases request with
  | result | line => exact absurd h id
  | ended => exact (finish_stays.follows_end []).bind fun _ _ _ => trivial
  | operation operation =>
      cases operation with
      | stop => exact (stop_quitting (by simp)).bind fun _ _ _ => trivial
      | startConnected =>
          have hstart : (startConnected plan).Follows (Session.quitting plan.config) []
              fun _ _ => True := by
            refine ⟨nofun, fun idle _ => ?_⟩
            cases idle with
            | false => trivial
            | true => exact ⟨nofun, fun _ _ => bringUp_quitting (by simp)⟩
          exact hstart.bind fun _ _ _ => trivial
      | start =>
          have hstart : (Session.start plan).Follows (Session.quitting plan.config) []
              fun _ _ => True := by
            refine ⟨nofun, fun idle _ => ?_⟩
            cases idle with
            | false => trivial
            | true =>
                refine ⟨nofun, fun fault _ => ?_⟩
                cases fault with
                | some fault => exact ⟨nofun, fun _ _ => trivial⟩
                | none => exact bringUp_quitting (by simp)
          exact hstart.bind fun _ _ _ => trivial
      | _ => exact absurd h id

/-! ## Commands are forbidden once -/

theorem perform_disableCommands {reaction : Option Fault} {state after : State} {allowed : Bool}
    (h : state.perform reaction .disableCommands = some (after, allowed)) :
    allowed = state.commanded ∧ after = { state with commanded := false } := by
  cases h
  exact ⟨rfl, rfl⟩

section Runs

variable {host : Host} {ρ α : Type} {program : ρ → Activity α} {c : Chronicle host ρ α}

/-- Once somebody has found commands possible and has forbidden them, the session is shut. -/
theorem Possible.shut_of_disabled (h : Possible program c) (hprogram : ∀ r, Dutiful (program r))
    {actor : Actor} (hdisabled : .did actor ⟨.disableCommands, true⟩ ∈ c.history) :
    Shut c.session.state c.history := by
  refine h.of_passage hprogram
    (fun state history => .did actor ⟨.disableCommands, true⟩ ∈ history → Shut state history)
    (by simp) ?_ hdisabled
  intro c next h hpassage hbefore hdisabled
  cases hpassage with
  | aside hhistory hholdings hexited hphase =>
      have hearlier : .did actor ⟨.disableCommands, true⟩ ∈ c.history :=
        mem_of_aside hhistory hdisabled trivial
      exact ((hbefore hearlier).of_passage (.aside hhistory hholdings hexited hphase)).1
  | @step other reaction action answer hpermits haction hperform hhistory =>
      rw [hhistory] at hdisabled
      rcases List.mem_append.mp hdisabled with hdisabled | hdisabled
      · exact ((hbefore hdisabled).of_passage (.step hpermits haction hperform hhistory)).1
      · cases List.mem_singleton.mp hdisabled
        obtain ⟨hallowed, hforbidden⟩ := perform_disableCommands hperform
        -- commands were possible, and so nobody was at work
        obtain ⟨hnone, hphase, -⟩ := (h.standing hprogram).of_commanded hallowed.symm
        refine ⟨?_, ?_, ?_⟩
        · rw [hforbidden]
        · rw [hforbidden]
          exact hphase
        · intro worker
          rw [hhistory]
          by_cases hne : actor = worker
          · subst hne
            rw [dutyOf_did]
            exact id
          · rw [dutyOf_did_ne hne]
            exact Duty.opens_of_holdings? (hnone worker)

/-- Commands that were made possible remain so until somebody forbids them. -/
theorem Possible.commanded_or_disabled (h : Possible program c)
    (hprogram : ∀ r, Dutiful (program r)) {actor : Actor} {answer : Unit}
    (henabled : .did actor ⟨.enableCommands, answer⟩ ∈ c.history) :
    c.session.state.commanded = true ∨
      ∃ other, .did other ⟨.disableCommands, true⟩ ∈ c.history := by
  refine h.of_passage hprogram (fun state history =>
    .did actor ⟨.enableCommands, answer⟩ ∈ history → state.commanded = true ∨
      ∃ other, .did other ⟨.disableCommands, true⟩ ∈ history) (by simp) ?_ henabled
  intro c next h hpassage hbefore henabled
  cases hpassage with
  | aside hhistory hholdings =>
      obtain ⟨hcommanded, -⟩ := Holdings.mk.inj hholdings
      refine (hbefore (mem_of_aside hhistory henabled trivial)).imp hcommanded.trans ?_
      rintro ⟨other, hdisabled⟩
      obtain hsame | ⟨occurrence, hlater, -⟩ := hhistory
      · exact ⟨other, hsame ▸ hdisabled⟩
      · exact ⟨other, hlater ▸ List.mem_append_left _ hdisabled⟩
  | @step other reaction action answer' hpermits haction hperform hhistory =>
      rw [hhistory] at henabled ⊢
      have hcommanded := (perform_wire hperform).2
      rcases List.mem_append.mp henabled with henabled | henabled
      · rcases hbefore henabled with hallowed | ⟨earlier, hdisabled⟩
        · cases action with
          | disableCommands =>
              obtain ⟨rfl, -⟩ := perform_disableCommands hperform
              exact .inr ⟨other, by simp [hallowed]⟩
          | enableCommands => exact .inl hcommanded
          | _ => exact .inl (hcommanded.trans hallowed)
        · exact .inr ⟨earlier, List.mem_append_left _ hdisabled⟩
      · cases List.mem_singleton.mp henabled
        exact .inl hcommanded

/-- One caller at most has found commands possible and has forbidden them, and once. -/
theorem Possible.disabled_once (h : Possible program c) (hprogram : ∀ r, Dutiful (program r))
    {past future : History} {actor other : Actor}
    (hhistory : c.history = past ++ .did actor ⟨.disableCommands, true⟩ :: future) :
    .did other ⟨.disableCommands, true⟩ ∉ past := by
  intro hearlier
  obtain ⟨earlier, later, hmoment, rfl, hlater⟩ := h.exists_moment hhistory
  have hshut := hmoment.possible.shut_of_disabled hprogram hearlier
  cases hmoment.effect hlater with
  | did hperform =>
      have hallowed := (perform_disableCommands hperform).1
      rw [hshut.commanded] at hallowed
      cases hallowed

theorem Possible.disabler_unique (h : Possible program c) (hprogram : ∀ r, Dutiful (program r))
    {actor other : Actor} (hactor : .did actor ⟨.disableCommands, true⟩ ∈ c.history)
    (hother : .did other ⟨.disableCommands, true⟩ ∈ c.history) : actor = other := by
  obtain ⟨past, future, hhistory⟩ := List.append_of_mem hactor
  rw [hhistory] at hother
  rcases List.mem_append.mp hother with hpast | hrest
  · exact absurd hpast (h.disabled_once hprogram hhistory)
  rcases List.mem_cons.mp hrest with hsame | hfuture
  · cases hsame
    rfl
  · obtain ⟨middle, final, rfl⟩ := List.append_of_mem hfuture
    have hlater : c.history = (past ++ .did actor ⟨.disableCommands, true⟩ :: middle) ++
        .did other ⟨.disableCommands, true⟩ :: final := by simp [hhistory]
    have hmem : .did actor ⟨.disableCommands, true⟩ ∈
        past ++ .did actor ⟨.disableCommands, true⟩ :: middle := by simp
    exact absurd hmem (h.disabled_once hprogram hlater)

/-- What nobody can give up was done. -/
theorem Possible.exists_did (h : Possible program c) {actor : Actor} {deed : Deed interface}
    {first rest : List (Deed interface)} (hdeeds : deedsOf actor c.history = first ++ deed :: rest)
    (hprompt : ∀ reaction state, State.giveUp reaction deed.action state = none) :
    ∃ past future, c.history = past ++ .did actor deed :: future ∧ deedsOf actor past = first ∧
      deedsOf actor future = rest := by
  obtain ⟨past, occurrence, future, hhistory, hdeed, hfirst, hrest⟩ :=
    exists_split_of_deedsOf hdeeds
  refine ⟨past, future, ?_, hfirst, hrest⟩
  cases occurrence with
  | happened => cases hdeed
  | did other deed =>
      obtain ⟨rfl, rfl⟩ := by simpa [Occurrence.deedOf?] using hdeed
      exact hhistory
  | gaveUp other deed =>
      obtain ⟨rfl, rfl⟩ := by simpa [Occurrence.deedOf?] using hdeed
      obtain ⟨earlier, later, hmoment, rfl, hlater⟩ := h.exists_moment hhistory
      cases hmoment.effect hlater with
      | gaveUp hwait hgiveUp =>
          rw [hprompt] at hgiveUp
          cases hgiveUp

theorem Action.IsMilestone.giveUp_eq_none {action : Action} (h : action.IsMilestone)
    (reaction : Option Fault) (state : State) : State.giveUp reaction action state = none :=
  Option.eq_none_iff_forall_not_mem.mpr fun _ hgiveUp => not_isMilestone_of_giveUp hgiveUp h

theorem Possible.did_of_mem_deedsOf (h : Possible program c) {actor : Actor}
    {deed : Deed interface} (hmem : deed ∈ deedsOf actor c.history)
    (haction : deed.action.IsMilestone) : .did actor deed ∈ c.history := by
  obtain ⟨first, rest, hdeeds⟩ := List.append_of_mem hmem
  obtain ⟨past, future, hhistory, -⟩ := h.exists_did hdeeds haction.giveUp_eq_none
  simp [hhistory]

/-- Whoever forbids commands after having made them possible leaves the session shut. -/
theorem Possible.shut_of_forbidden (h : Possible program c)
    (hprogram : ∀ r, Dutiful (program r)) {actor : Actor} {first rest : List (Deed interface)}
    {answer : Unit} {allowed : Bool}
    (hdeeds : deedsOf actor c.history = first ++ ⟨.disableCommands, allowed⟩ :: rest)
    (henabled : ⟨.enableCommands, answer⟩ ∈ first) : Shut c.session.state c.history := by
  obtain ⟨past, future, hhistory, rfl, -⟩ := h.exists_did hdeeds fun _ _ => rfl
  obtain ⟨earlier, later, hmoment, rfl, hlater⟩ := h.exists_moment hhistory
  have hpossible := hmoment.possible
  have hallowed : allowed = earlier.session.state.commanded := by
    cases hmoment.effect hlater with
    | did hperform => exact (perform_disableCommands hperform).1
  have hearlier := hpossible.did_of_mem_deedsOf henabled trivial
  rcases hpossible.commanded_or_disabled hprogram hearlier with hcommanded | ⟨other, hdisabled⟩
  · rw [hallowed, hcommanded] at hhistory
    have hdisabled : .did actor ⟨.disableCommands, true⟩ ∈ c.history := by simp [hhistory]
    exact h.shut_of_disabled hprogram hdisabled
  · exact h.shut_of_disabled hprogram (hhistory ▸ List.mem_append_left _ hdisabled)

end Runs

section Quits

variable {host : Host} {plan : Plan} {c : Chronicle host Request Reply} {n : Nat}
  {request : Request} {past future : History} {fault : Option Fault}

theorem Possible.readyToQuit (h : Possible (Request.program plan) c)
    (hrequest : c.requests[n]? = some request) (hgoverns : request.Governs)
    (hhistory : c.history = past ++ .did (.caller n) ⟨.write "-gdb-exit", fault⟩ :: future) :
    ReadyToQuit plan.config (deedsOf (.caller n) past) := by
  have hkeeps := h.keeps_of_request hrequest (Request.quitting hgoverns plan) fun _ _ => trivial
  rw [hhistory, deedsOf_append, ← List.singleton_append, deedsOf_append, deedsOf_did,
    List.singleton_append] at hkeeps
  exact Protocol.permits_of_keeps hkeeps rfl

/-- The command to quit is written by a caller that is ready to, and was not written before. -/
theorem Possible.quits_once (h : Possible (Request.program plan) c)
    (hrequest : c.requests[n]? = some request) (hgoverns : request.Governs)
    (hhistory : c.history = past ++ .did (.caller n) ⟨.write "-gdb-exit", fault⟩ :: future) :
    ReadyToQuit plan.config (deedsOf (.caller n) past) ∧
      ∀ m other earlier, c.requests[m]? = some other → other.Governs →
        .did (.caller m) ⟨.write "-gdb-exit", earlier⟩ ∉ past := by
  have hready := h.readyToQuit hrequest hgoverns hhistory
  refine ⟨hready, ?_⟩
  intro m other earlier hother hgoverns' hmem
  obtain ⟨first, second, rfl⟩ := List.append_of_mem hmem
  have hhistory' : c.history = first ++ .did (.caller m) ⟨.write "-gdb-exit", earlier⟩ ::
      (second ++ .did (.caller n) ⟨.write "-gdb-exit", fault⟩ :: future) := by simp [hhistory]
  -- both have forbidden commands, and so they are one caller
  have hdisabled {k : Nat} {before after : History} {occurrence : Occurrence}
      (hsplit : c.history = before ++ occurrence :: after)
      (hready : ReadyToQuit plan.config (deedsOf (.caller k) before)) :
      .did (.caller k) ⟨.disableCommands, true⟩ ∈ c.history := by
    obtain ⟨steps, ticket, heq, hdisabled, -⟩ := hready
    refine h.did_of_mem_deedsOf ?_ trivial
    rw [hsplit, deedsOf_append, heq]
    exact List.mem_append_left _ (List.mem_append_left _ hdisabled)
  have hsame := h.disabler_unique (Request.dutiful plan)
    (hdisabled hhistory' (h.readyToQuit hother hgoverns' hhistory')) (hdisabled hhistory hready)
  cases hsame
  -- and that caller had not written the command before
  obtain ⟨steps, ticket, heq, -, hstays⟩ := hready
  have hwritten : (⟨.write "-gdb-exit", earlier⟩ : Deed interface) ∈
      steps ++ lastSteps plan.config ticket := heq ▸ mem_deedsOf.mpr (.inl hmem)
  rcases List.mem_append.mp hwritten with hwritten | hwritten
  · exact hstays _ hwritten rfl
  · unfold lastSteps at hwritten
    split at hwritten <;> simp at hwritten

end Quits

end DebugBridge.Session
