import DebugBridge.Proofs.Session.Endings
import DebugBridge.Proofs.Session.Farewell

/-!
# What a start does

A start connects the session and waits for the first line of output.  Then it carries out the
commands of the warm-up one after the other, up to the first that is not accepted.  When it fails it
stops the session.

## Strategy

* `Ran` is what a command has done that has come to an outcome; a command that was accepted has seen
  the session go on and has written its line.
* The warm-up is a sequence of commands (`CarriedOut`), and the start is put together from pieces
  that were done one after the other (`StartDid`).

## Main statements

* `startConnected_yields`: what a start has done, with its result.
* `Operation.launches`: the same of a start that may have to launch the debugger.
* `CarriedOut.lines_eq`: the lines that the commands of a warm-up have written.
-/

namespace DebugBridge.Session

/-! ## Lines -/

/-- The line that is written. -/
def lineOf? : Deed interface → Option String
  | ⟨.write line, none⟩ => some line
  | _ => none

/-- The lines that were written, first to last. -/
def linesOf (deeds : List (Deed interface)) : List String :=
  deeds.filterMap lineOf?

@[simp]
theorem linesOf_nil : linesOf [] = [] :=
  rfl

@[simp]
theorem linesOf_cons (deed : Deed interface) (deeds : List (Deed interface)) :
    linesOf (deed :: deeds) = (lineOf? deed).toList ++ linesOf deeds := by
  unfold linesOf
  cases h : lineOf? deed <;> simp [h]

@[simp]
theorem linesOf_append (deeds more : List (Deed interface)) :
    linesOf (deeds ++ more) = linesOf deeds ++ linesOf more := by
  simp [linesOf]

/-- A command for a line has come to an outcome.  It has written that line and no other; if it was
accepted, it has done so, and has seen the session go on. -/
structure Ran (line : String) (outcome : Outcome) (deeds : List (Deed interface)) : Prop where
  lines : linesOf deeds = [line] ∨ linesOf deeds = []
  accepted : isAccepted outcome = true →
    linesOf deeds = [line] ∧ (⟨.isExited, true⟩ : Deed interface) ∉ deeds

/-- A command that writes nothing is not accepted. -/
theorem Ran.of_lines {line : String} {outcome : Outcome} {deeds : List (Deed interface)}
    (hlines : linesOf deeds = []) (hdeclined : isAccepted outcome = false) :
    Ran line outcome deeds :=
  ⟨.inr hlines, fun haccepted => by simp [hdeclined] at haccepted⟩

/-- What else is done may be anything but to write a line or to see that the session has ended. -/
theorem Ran.of_lines_eq {line : String} {outcome : Outcome} {deeds more : List (Deed interface)}
    (h : Ran line outcome deeds) (hlines : linesOf more = linesOf deeds)
    (hlook : (⟨.isExited, true⟩ : Deed interface) ∈ more → ⟨.isExited, true⟩ ∈ deeds) :
    Ran line outcome more := by
  refine ⟨hlines ▸ h.lines, fun haccepted => ?_⟩
  obtain ⟨hline, hgoesOn⟩ := h.accepted haccepted
  exact ⟨hlines.trans hline, mt hlook hgoesOn⟩

theorem Ending.ran {config : Config} {line : String} {limit : Nat} {way : Way} {outcome : Outcome}
    {deeds : List (Deed interface)} (h : Ending config line limit way outcome deeds) :
    Ran line outcome deeds := by
  cases h with
  | exited | rejected => exact .of_lines rfl rfl
  | unwritten ticket fault exited =>
      refine .of_lines ?_ (by cases exited <;> rfl)
      cases hmode : config.asyncMode <;> simp [admission, retreat, hmode, lineOf?]
  | waited =>
      have hlines : linesOf (admission config) = [] := by
        cases hmode : config.asyncMode <;> simp [admission, hmode, lineOf?]
      refine ⟨.inl ?_, fun _ => ⟨?_, ?_⟩⟩
      · simp [hlines, lineOf?]
      · simp [hlines, lineOf?]
      · cases hmode : config.asyncMode <;> simp [admission, hmode]

theorem execute_ran (config : Config) (command : String) :
    (execute config command).Yields (Ran (commandLine command [])) := by
  refine (runCommand_ends config (commandLine command []) config.commandLimit).mono ?_
  rintro outcome _ ⟨granted, way, tenure, rfl, hending⟩
  exact hending.ran.of_lines_eq (by simp [lineOf?]) (by simp)

/-! ## The warm-up -/

/-- The commands were carried out one after the other, with these outcomes. -/
inductive CarriedOut (config : Config) :
    List String → List Outcome → List (Deed interface) → Prop
  | nil : CarriedOut config [] [] []
  | cons {command : String} {outcome : Outcome} {commands : List String} {outcomes : List Outcome}
      {first deeds : List (Deed interface)}
      (hcommand : (execute config command).Leads first (.done outcome))
      (hrest : CarriedOut config commands outcomes deeds) :
      CarriedOut config (command :: commands) (outcome :: outcomes) (first ++ deeds)

/-- What a warm-up has done that ended so. -/
inductive WarmUpDid (config : Config) :
    List String → Option Fault → List (Deed interface) → Prop
  /-- all commands were accepted -/
  | all {commands : List String} {outcomes : List Outcome} {deeds : List (Deed interface)}
      (hcarried : CarriedOut config commands outcomes deeds)
      (haccepted : ∀ outcome ∈ outcomes, isAccepted outcome = true) :
      WarmUpDid config commands none deeds
  /-- a command was not accepted, and those after it were not carried out -/
  | upTo {before after : List String} {command : String} {outcomes : List Outcome}
      {outcome : Outcome} {deeds last : List (Deed interface)}
      (hcarried : CarriedOut config before outcomes deeds)
      (haccepted : ∀ outcome ∈ outcomes, isAccepted outcome = true)
      (hcommand : (execute config command).Leads last (.done outcome))
      (hdeclined : isAccepted outcome = false) :
      WarmUpDid config (before ++ command :: after) (some (.warmUp command outcome.status))
        (deeds ++ last)

theorem WarmUpDid.cons {config : Config} {command : String} {outcome : Outcome}
    {commands : List String} {fault : Option Fault} {first deeds : List (Deed interface)}
    (h : WarmUpDid config commands fault deeds)
    (hcommand : (execute config command).Leads first (.done outcome))
    (haccepted : isAccepted outcome = true) :
    WarmUpDid config (command :: commands) fault (first ++ deeds) := by
  cases h with
  | all hcarried hall =>
      exact .all (hcarried.cons hcommand) (List.forall_mem_cons.mpr ⟨haccepted, hall⟩)
  | upTo hcarried hall hlast hdeclined =>
      rw [← List.append_assoc, ← List.cons_append]
      exact .upTo (hcarried.cons hcommand) (List.forall_mem_cons.mpr ⟨haccepted, hall⟩) hlast
        hdeclined

theorem warmUp_yields (config : Config) (commands : List String) :
    (warmUp config commands).Yields (WarmUpDid config commands) := by
  induction commands with
  | nil => exact .all .nil (by simp)
  | cons command rest ih =>
      refine (Program.yields_leads (execute config command)).bind ?_
      intro outcome first hcommand
      cases haccepted : isAccepted outcome with
      | true =>
          rw [if_pos rfl]
          exact ih.mono fun fault deeds hrest => hrest.cons hcommand haccepted
      | false =>
          rw [if_neg (by simp)]
          have hfirst : WarmUpDid config ([] ++ command :: rest)
              (some (.warmUp command outcome.status)) ([] ++ first) :=
            .upTo .nil (by simp) hcommand haccepted
          simpa using hfirst

/-- Commands that were accepted were written one after the other, and saw the session go on. -/
theorem CarriedOut.lines_eq {config : Config} {commands : List String} {outcomes : List Outcome}
    {deeds : List (Deed interface)} (h : CarriedOut config commands outcomes deeds)
    (haccepted : ∀ outcome ∈ outcomes, isAccepted outcome = true) :
    linesOf deeds = commands.map (commandLine · []) ∧
      (⟨.isExited, true⟩ : Deed interface) ∉ deeds := by
  induction h with
  | nil => exact ⟨rfl, by simp⟩
  | @cons command outcome commands outcomes first deeds hcommand hrest ih =>
      obtain ⟨hfirst, hothers⟩ := List.forall_mem_cons.mp haccepted
      obtain ⟨hlines, hgoesOn⟩ := ih hothers
      obtain ⟨hline, hlook⟩ := ((execute_ran config command).of_leads hcommand).accepted hfirst
      constructor
      · rw [linesOf_append, hline, hlines, List.map_cons, List.singleton_append]
      · exact fun hmem => (List.mem_append.mp hmem).elim hlook hgoesOn

/-! ## The start -/

/-- The commands of a warm-up are written as they are. -/
theorem map_commandLine {config : Config} {target : Target} {commands : List String}
    (h : ∀ command ∈ commands, command ∈ config.warmUp target) :
    commands.map (commandLine · []) = commands := by
  refine (List.map_congr_left fun command hcommand => ?_).trans (List.map_id commands)
  exact commandLine_of_mem_warmUp (h command hcommand)

/-- A start has begun the session and connected it; none of these deeds is part of a command. -/
structure Opening (deeds : List (Deed interface)) : Prop where
  begun : deeds.head? = some ⟨.beginStart, true⟩
  connected : ⟨.connect, ()⟩ ∈ deeds
  milestones : ∀ deed ∈ deeds, deed.action.IsMilestone

/-- Why a debugger did not come up that printed nothing in time. -/
def silenceFault (config : Config) (exited : Bool) : Fault :=
  if exited then .exited else .readyTimeout (Text.Elapsed.ofMillis config.readyLimit)

/-- What a start has done that ended so. -/
inductive StartDid (plan : Plan) : Except Fault Unit → List (Deed interface) → Prop
  | refused : StartDid plan (.error .alreadyStarted) [⟨.beginStart, false⟩]
  /-- it has not found any output -/
  | unheard {opening closing : List (Deed interface)} {exited : Bool} (hopening : Opening opening)
      (hstop : (stop plan.config).Leads closing (.done ())) :
      StartDid plan (.error (silenceFault plan.config exited))
        (opening ++ ⟨.enableCommands, ()⟩ :: ⟨.awaitOutput plan.config.readyLimit, false⟩ ::
          ⟨.isExited, exited⟩ :: closing)
  | failed {opening warming closing : List (Deed interface)} {fault : Fault}
      (hopening : Opening opening)
      (hwarming : WarmUpDid plan.config (plan.config.warmUp plan.target) (some fault) warming)
      (hstop : (stop plan.config).Leads closing (.done ())) :
      StartDid plan (.error fault)
        (opening ++ ⟨.enableCommands, ()⟩ :: ⟨.awaitOutput plan.config.readyLimit, true⟩ ::
          (warming ++ closing))
  | succeeded {opening warming : List (Deed interface)} {kept : Bool} (hopening : Opening opening)
      (hwarming : WarmUpDid plan.config (plan.config.warmUp plan.target) none warming) :
      StartDid plan (.ok ())
        (opening ++ ⟨.enableCommands, ()⟩ :: ⟨.awaitOutput plan.config.readyLimit, true⟩ ::
          (warming ++ [⟨.finishStart, kept⟩]))

theorem Opening.append {opening : List (Deed interface)} (h : Opening opening)
    {deeds : List (Deed interface)} (hdeeds : ∀ deed ∈ deeds, deed.action.IsMilestone) :
    Opening (opening ++ deeds) where
  begun := by rw [List.head?_append, h.begun, Option.some_or]
  connected := List.mem_append_left _ h.connected
  milestones := List.forall_mem_append.mpr ⟨h.milestones, hdeeds⟩

theorem comeUp_yields (plan : Plan) : (comeUp plan).Yields fun fault deeds =>
    (∃ exited, fault = some (silenceFault plan.config exited) ∧
      deeds = [⟨.awaitOutput plan.config.readyLimit, false⟩, ⟨.isExited, exited⟩]) ∨
    ∃ warming, WarmUpDid plan.config (plan.config.warmUp plan.target) fault warming ∧
      deeds = ⟨.awaitOutput plan.config.readyLimit, true⟩ :: warming := by
  intro heard
  cases heard with
  | true =>
      refine (warmUp_yields plan.config (plan.config.warmUp plan.target)).mono ?_
      intro fault warming hwarming
      exact .inr ⟨warming, hwarming, rfl⟩
  | false =>
      intro exited
      cases exited <;> exact .inl ⟨_, rfl, rfl⟩

/-- What is done to bring up a debugger that is connected, with its result. -/
inductive Brought (plan : Plan) : Except Fault Unit → List (Deed interface) → Prop
  /-- no output was found -/
  | unheard {watching closing : List (Deed interface)} {exited : Bool}
      (hwatching : ∀ deed ∈ watching, deed.action.IsMilestone)
      (hstop : (stop plan.config).Leads closing (.done ())) :
      Brought plan (.error (silenceFault plan.config exited))
        (watching ++ ⟨.enableCommands, ()⟩ :: ⟨.awaitOutput plan.config.readyLimit, false⟩ ::
          ⟨.isExited, exited⟩ :: closing)
  | failed {watching warming closing : List (Deed interface)} {fault : Fault}
      (hwatching : ∀ deed ∈ watching, deed.action.IsMilestone)
      (hwarming : WarmUpDid plan.config (plan.config.warmUp plan.target) (some fault) warming)
      (hstop : (stop plan.config).Leads closing (.done ())) :
      Brought plan (.error fault)
        (watching ++ ⟨.enableCommands, ()⟩ :: ⟨.awaitOutput plan.config.readyLimit, true⟩ ::
          (warming ++ closing))
  | succeeded {watching warming : List (Deed interface)} {kept : Bool}
      (hwatching : ∀ deed ∈ watching, deed.action.IsMilestone)
      (hwarming : WarmUpDid plan.config (plan.config.warmUp plan.target) none warming) :
      Brought plan (.ok ())
        (watching ++ ⟨.enableCommands, ()⟩ :: ⟨.awaitOutput plan.config.readyLimit, true⟩ ::
          (warming ++ [⟨.finishStart, kept⟩]))

/-- Behind what was done to watch a debugger, it does not matter whether it was gone. -/
theorem brings_of_watched {plan : Plan} {rest : Option Fault → Activity (Except Fault Unit)}
    (hfails : ∀ fault, rest (some fault) = stop plan.config >>= fun _ => pure (.error fault))
    (hcomes : rest none = perform .finishStart >>= fun _ => pure (.ok ()))
    (watching : List (Deed interface)) (hwatching : ∀ deed ∈ watching, deed.action.IsMilestone) :
    (perform .enableCommands >>= fun _ => comeUp plan >>= rest).Yields fun result deeds =>
      Brought plan result (watching ++ deeds) := by
  intro _
  refine (comeUp_yields plan).bind ?_
  rintro fault _ (⟨exited, rfl, rfl⟩ | ⟨warming, hwarming, rfl⟩)
  · rw [hfails]
    refine (Program.yields_leads (stop plan.config)).bind ?_
    intro _ closing hstop
    simpa using Brought.unheard hwatching hstop
  · cases fault with
    | some fault =>
        rw [hfails]
        refine (Program.yields_leads (stop plan.config)).bind ?_
        intro _ closing hstop
        simpa using Brought.failed hwatching hwarming hstop
    | none =>
        rw [hcomes]
        intro kept
        refine Program.yields_done.mpr ?_
        simpa using Brought.succeeded hwatching hwarming

theorem bringUp_brings (plan : Plan) : (bringUp plan).Yields (Brought plan) := by
  intro gone
  cases gone with
  | false =>
      apply brings_of_watched (fun _ => rfl) rfl [⟨.watchExit, false⟩]
      simp [Action.IsMilestone]
  | true =>
      intro ended
      cases ended with
      | false =>
          apply brings_of_watched (fun _ => rfl) rfl [⟨.watchExit, true⟩, ⟨.markExited, false⟩]
          simp [Action.IsMilestone]
      | true =>
          intro answer
          apply brings_of_watched (fun _ => rfl) rfl
            [⟨.watchExit, true⟩, ⟨.markExited, true⟩, ⟨.publish .exited, answer⟩]
          simp [Action.IsMilestone]

/-- What a start does that has begun and connected the session. -/
theorem Opening.startDid {plan : Plan} {result : Except Fault Unit}
    {opening deeds : List (Deed interface)} (h : Opening opening)
    (hbrought : Brought plan result deeds) :
    StartDid plan result (opening ++ deeds) := by
  cases hbrought with
  | unheard hwatching hstop => simpa using StartDid.unheard (h.append hwatching) hstop
  | failed hwatching hwarming hstop =>
      simpa using StartDid.failed (h.append hwatching) hwarming hstop
  | succeeded hwatching hwarming => simpa using StartDid.succeeded (h.append hwatching) hwarming

theorem startConnected_yields (plan : Plan) : (startConnected plan).Yields (StartDid plan) := by
  intro idle
  cases idle with
  | false => exact .refused
  | true =>
      intro answer
      have hopening : Opening [⟨.beginStart, true⟩, ⟨.connect, answer⟩] :=
        ⟨rfl, by simp, by simp [Action.IsMilestone]⟩
      exact (bringUp_brings plan).mono fun _ _ hbrought => hopening.startDid hbrought

/-- What a start has done that ended so, of a debugger that runs already or of one that it has to
launch. -/
inductive Launched (plan : Plan) : Except Fault Unit → List (Deed interface) → Prop
  | refused : Launched plan (.error .alreadyStarted) [⟨.beginStart, false⟩]
  | unlaunched (fault : Fault) (ended : Bool) :
      Launched plan (.error fault)
        [⟨.beginStart, true⟩, ⟨.launch, some fault⟩, ⟨.markExited, ended⟩]
  | brought {link : Deed interface} {result : Except Fault Unit} {deeds : List (Deed interface)}
      (hlink : link = ⟨.connect, ()⟩ ∨ link = ⟨.launch, none⟩)
      (hbrought : Brought plan result deeds) :
      Launched plan result (⟨.beginStart, true⟩ :: link :: deeds)

theorem startConnected_launches (plan : Plan) : (startConnected plan).Yields (Launched plan) := by
  intro idle
  cases idle with
  | false => exact .refused
  | true => exact fun _ => (bringUp_brings plan).mono fun _ _ hbrought => .brought (.inl rfl) hbrought

theorem start_launches (plan : Plan) : (start plan).Yields (Launched plan) := by
  intro idle
  cases idle with
  | false => exact .refused
  | true =>
      intro fault
      cases fault with
      | some fault => exact fun ended => .unlaunched fault ended
      | none =>
          exact (bringUp_brings plan).mono fun _ _ hbrought => .brought (.inr rfl) hbrought

theorem Operation.launches {operation : Operation} (h : operation.Starts) (plan : Plan) :
    (operation.program plan).Yields fun reply deeds =>
      ∃ result, reply = .started result ∧ Launched plan result deeds := by
  cases operation with
  | start =>
      exact (start_launches plan).bind fun result deeds hlaunched =>
        ⟨result, rfl, by simpa using hlaunched⟩
  | startConnected =>
      exact (startConnected_launches plan).bind fun result deeds hlaunched =>
        ⟨result, rfl, by simpa using hlaunched⟩
  | stop | call | set | command | tryCommand => exact h.elim

/-- What a start has done that has returned. -/
theorem Possible.launched {host : Host} {plan : Plan} {c : Chronicle host Request Reply} {n : Nat}
    (h : Possible (Request.program plan) c) {operation : Operation} (hstarts : operation.Starts)
    (hrequest : c.requests[n]? = some (.operation operation)) {reply : Reply}
    (hreply : c.system.value? n = some reply) :
    ∃ result, reply = .started result ∧ Launched plan result (deedsOf (.caller n) c.history) :=
  (Operation.launches hstarts plan).of_leads (h.leads_of_value hrequest hreply)

end DebugBridge.Session
