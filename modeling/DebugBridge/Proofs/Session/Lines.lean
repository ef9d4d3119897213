import DebugBridge.Proofs.Session.WarmUp

/-!
# Lines and commands

What a caller asks for decides which lines it may write, and each of them is written once at most.
Most lines hold texts that the caller chose, as they are.  The debugger takes every line feed for
the end of a command, and so it reads as many commands as the line and its texts have ends.

## Strategy

* An `Offer` is a line that a request may write, with the texts in it that are not fixed; what a
  request offers is given in the order in which it writes (`Request.offers`).
* However far a program has come, it has written some of its lines in that order (`Writes`).
* An offer has the line feeds of its texts and no others (`Offer.lineFeeds_eq`).

## Main statements

* `Request.writes`: what a request writes are lines that it offers.
* `line_splits`: a text with a line feed in it makes two commands of one.
* `commands_in_lines`: how many commands the debugger reads of the lines that were written.
-/

namespace DebugBridge.Session

/-! ## Line feeds -/

/-- How many line feeds there are in a text. -/
def lineFeeds (text : String) : Nat :=
  text.toList.count '\n'

/-- How many line feeds there are in several texts. -/
def lineFeedsIn : List String → Nat
  | [] => 0
  | text :: rest => lineFeeds text + lineFeedsIn rest

@[simp]
theorem lineFeedsIn_nil : lineFeedsIn [] = 0 :=
  rfl

@[simp]
theorem lineFeedsIn_cons (text : String) (rest : List String) :
    lineFeedsIn (text :: rest) = lineFeeds text + lineFeedsIn rest :=
  rfl

/-- How many commands the debugger reads when a line is written: one up to each line feed, of which
there is one behind the line. -/
def commandsRead (line : String) : Nat :=
  lineFeeds (line ++ "\n")

@[simp]
theorem lineFeeds_append (first second : String) :
    lineFeeds (first ++ second) = lineFeeds first + lineFeeds second := by
  simp [lineFeeds]

theorem commandsRead_eq (line : String) : commandsRead line = lineFeeds line + 1 :=
  lineFeeds_append line "\n"

theorem lineFeeds_toString (n : Nat) : lineFeeds (toString n) = 0 := by
  rw [lineFeeds, Nat.toString_eq_repr, Nat.toList_repr, List.count_eq_zero]
  intro hfeed
  exact absurd (Nat.isDigit_of_mem_toDigits (by omega) (by omega) hfeed) (by decide)

theorem lineFeeds_intercalate (parts : List String) :
    lineFeeds (" ".intercalate parts) = lineFeedsIn parts := by
  induction parts with
  | nil => rfl
  | cons part rest ih =>
      cases rest with
      | nil => simp
      | cons other rest =>
          rw [String.intercalate_cons_cons, lineFeeds_append, lineFeeds_append, ih]
          simp [lineFeeds]

/-- A command line has the line feeds of its parts. -/
theorem lineFeeds_commandLine (command : String) (arguments : List String) :
    lineFeeds (commandLine command arguments) =
      lineFeeds command + lineFeedsIn arguments := by
  have hfilter (parts : List String) :
      lineFeedsIn (parts.filter (!·.isEmpty)) = lineFeedsIn parts := by
    induction parts with
    | nil => rfl
    | cons part rest ih =>
        by_cases hempty : part = ""
        · subst hempty
          simpa [lineFeeds] using ih
        · simp [hempty, ih]
  rw [commandLine, lineFeeds_intercalate, hfilter, lineFeedsIn_cons]

/-- The place of a breakpoint has the line feeds of its file. -/
theorem lineFeeds_locationArgument (breakpoint : Breakpoint) :
    lineFeeds breakpoint.locationArgument = lineFeeds breakpoint.file := by
  have hslashes : (breakpoint.file.toList.map fun c => if c == '\\' then '/' else c).count '\n' =
      breakpoint.file.toList.count '\n' := by
    rw [List.count, List.countP_map]
    refine List.countP_congr fun c _ => ?_
    by_cases hslash : c = '\\'
    · simp [hslash]
    · simp [hslash]
  simp only [Breakpoint.locationArgument, lineFeeds_append, lineFeeds_toString]
  simpa [lineFeeds] using hslashes

/-! ## What is offered -/

/-- A line that may be written, with the texts in it that somebody chose. -/
structure Offer where
  line : String
  texts : List String
  /-- the line has no line feeds but those of the texts -/
  lineFeeds_eq : lineFeeds line = lineFeedsIn texts

/-- A command that is always the same. -/
def Offer.fixed (line : String) (h : lineFeeds line = 0) : Offer :=
  ⟨line, [], h⟩

/-- A command with the text that it is about. -/
def Offer.about (command text : String) (h : lineFeeds command = 0) : Offer :=
  ⟨commandLine command [text], [text], by rw [lineFeeds_commandLine, h, Nat.zero_add]⟩

/-- A command with a place in a file. -/
def Offer.at (command : String) (breakpoint : Breakpoint) (h : lineFeeds command = 0) : Offer :=
  ⟨commandLine command [breakpoint.locationArgument], [breakpoint.file], by
    simp [lineFeeds_commandLine, lineFeeds_locationArgument, h]⟩

/-- A command that somebody chose. -/
def Offer.chosen (text : String) : Offer :=
  ⟨commandLine text [], [text], by simp [lineFeeds_commandLine]⟩

theorem commandsRead_offer (offer : Offer) :
    commandsRead offer.line = lineFeedsIn offer.texts + 1 := by
  rw [commandsRead_eq, offer.lineFeeds_eq]

/-- The text in the address of a stub. -/
def placeOf : Link → String
  | .tcp host _ => host
  | .serial port _ => port

theorem lineFeeds_address (link : Link) : lineFeeds link.address = lineFeeds (placeOf link) := by
  cases link with
  | tcp host port =>
      rw [Link.address, lineFeeds_append, lineFeeds_append, lineFeeds_toString]
      rfl
  | serial port baudRate => rfl

/-- The rate of a serial line. -/
def Offer.baud (rate : Nat) : Offer :=
  .fixed ("-gdb-set serial baud " ++ toString rate) (by
    rw [lineFeeds_append, lineFeeds_toString]
    rfl)

/-- The architecture of the target. -/
def Offer.architecture (name : String) : Offer :=
  ⟨"-gdb-set architecture " ++ name, [name], by simp [lineFeeds]⟩

/-- The selection of a stub as the target. -/
def Offer.select (link : Link) (extended : Bool) : Offer :=
  ⟨"-target-select " ++ (if extended then "extended-remote" else "remote") ++ " " ++ link.address,
    [placeOf link], by
      rw [lineFeeds_append, lineFeeds_address]
      cases extended <;> simp [lineFeeds]⟩

/-- What connecting the debugger to its target offers. -/
def setupOffers : Target → List Offer
  | .local => []
  | .remote link extended =>
      (match link with
        | .serial _ (some rate) => [.baud rate]
        | _ => []) ++ [Offer.select link extended]

/-- What a warm-up offers. -/
def warmUpOffers (plan : Plan) : List Offer :=
  [Offer.fixed "-enable-pretty-printing" rfl] ++
    (if plan.config.asyncMode then [Offer.fixed "-gdb-set mi-async on" rfl] else []) ++
    [Offer.fixed "-gdb-set pagination off" rfl] ++
    (plan.config.architecture.map Offer.architecture).toList ++
    setupOffers plan.target

theorem map_line_setupOffers (target : Target) :
    (setupOffers target).map Offer.line = target.setupCommands := by
  cases target with
  | «local» => rfl
  | remote link extended =>
      cases link with
      | tcp => rfl
      | serial port baudRate => cases baudRate <;> rfl

theorem map_line_warmUpOffers (plan : Plan) :
    (warmUpOffers plan).map Offer.line = plan.config.warmUp plan.target := by
  simp only [warmUpOffers, Config.warmUp, List.map_append, map_line_setupOffers]
  cases plan.config.asyncMode <;> cases plan.config.architecture <;> rfl

/-- What pausing the target offers. -/
def pauseOffers (config : Config) : List Offer :=
  if config.asyncMode then [.fixed "-exec-interrupt" rfl] else []

/-- What the end of a session offers. -/
def stopOffers (config : Config) : List Offer :=
  pauseOffers config ++ [Offer.fixed "-gdb-exit" rfl]

def Call.offers (config : Config) : Call → List Offer
  | run => [.fixed "-exec-run" rfl]
  | step => [.fixed "-exec-step" rfl]
  | next => [.fixed "-exec-next" rfl]
  | finish => [.fixed "-exec-finish" rfl]
  | .continue => [.fixed "-exec-continue" rfl]
  | pause => pauseOffers config
  | frames => [.fixed "-stack-list-frames" rfl]
  | locals => [.fixed "-stack-list-locals 1" rfl]
  | print symbol => [.about "print" symbol rfl]
  | evaluate expression => [.about "-data-evaluate-expression" expression rfl]
  | insert breakpoint => [.at "-break-insert" breakpoint rfl]
  | remove breakpoint => [.at "clear" breakpoint rfl]
  | command text _ => [.chosen text]

/-- The lines that an operation may write, in this order. -/
def Operation.offers (plan : Plan) : Operation → List Offer
  | start | startConnected => warmUpOffers plan ++ stopOffers plan.config
  | stop => stopOffers plan.config
  | call request => request.offers plan.config
  | set settings => settings.map Offer.chosen
  | command line _ | tryCommand line _ => [⟨line, [line], by simp⟩]

def Request.offers (plan : Plan) : Request → List Offer
  | operation asked => asked.offers plan
  | result _ | line _ | ended => []

/-! ## What is written -/

/-- The line that is handed over to be written, whether or not that succeeds. -/
def handed? : Deed interface → Option String
  | ⟨.write line, _⟩ => some line
  | _ => none

/-- The lines that were handed over, first to last. -/
def handedOver (deeds : List (Deed interface)) : List String :=
  deeds.filterMap handed?

@[simp]
theorem handedOver_cons (deed : Deed interface) (deeds : List (Deed interface)) :
    handedOver (deed :: deeds) = (handed? deed).toList ++ handedOver deeds := by
  unfold handedOver
  cases h : handed? deed <;> simp [h]

@[simp]
theorem handedOver_append (deeds more : List (Deed interface)) :
    handedOver (deeds ++ more) = handedOver deeds ++ handedOver more := by
  simp [handedOver]

theorem handed?_eq_some {deed : Deed interface} {line : String} :
    handed? deed = some line ↔ deed.action = .write line := by
  obtain ⟨action, answer⟩ := deed
  cases action <;> simp [handed?]

/-- However far the program has come, it has written some of these lines, in this order. -/
def Writes {β : Type} (lines : List String) (program : Activity β) : Prop :=
  ∀ deeds rest, program.Leads deeds rest → (handedOver deeds).Sublist lines

section Writes

variable {β γ : Type} {lines : List String} {config : Config}

theorem writes_pure (value : β) : Writes lines (pure value : Activity β) := by
  intro deeds rest hleads
  obtain ⟨rfl, -⟩ := Program.leads_done.mp hleads
  exact List.nil_sublist lines

theorem Writes.mono {more : List String} {program : Activity β} (h : Writes lines program)
    (hsub : lines.Sublist more) : Writes more program :=
  fun deeds rest hleads => (h deeds rest hleads).trans hsub

theorem writes_act {action : Action} {next : action.Answer → Activity β}
    (haction : ∀ line, action ≠ .write line) (hnext : ∀ answer, Writes lines (next answer)) :
    Writes lines (.act action next) := by
  intro deeds rest hleads
  rcases Program.leads_act.mp hleads with ⟨rfl, -⟩ | ⟨answer, more, rfl, hmore⟩
  · exact List.nil_sublist lines
  · have hnone : handed? ⟨action, answer⟩ = none := by
      refine Option.eq_none_iff_forall_ne_some.mpr fun line hline => ?_
      exact haction line (handed?_eq_some.mp hline)
    rw [handedOver_cons, hnone]
    exact hnext answer more rest hmore

/-- The lines of two programs, one after the other. -/
theorem Writes.bind {first second : List String} {program : Activity β} {next : β → Activity γ}
    (h : Writes first program) (hnext : ∀ value, Writes second (next value)) :
    Writes (first ++ second) (program >>= next) := by
  intro deeds rest hleads
  rcases hleads.of_bind with ⟨left, hleft, -⟩ | ⟨early, value, late, rfl, hearly, hlate⟩
  · exact (h deeds left hleft).trans (List.sublist_append_left first second)
  · rw [handedOver_append]
    exact (h early _ hearly).append (hnext value late rest hlate)

theorem Ordinary.writes {program : Activity β} (h : Ordinary (fun _ => False) program) :
    Writes lines program := by
  intro deeds rest hleads
  have hnothing : handedOver deeds = [] := by
    refine List.filterMap_eq_nil_iff.mpr fun deed hdeed => ?_
    refine Option.eq_none_iff_forall_ne_some.mpr fun line hline => ?_
    exact ((hleads.onlyDoes h).1 deed hdeed).2 line (handed?_eq_some.mp hline)
  rw [hnothing]
  exact List.nil_sublist lines

/-- What comes after a program that writes nothing. -/
theorem Writes.after {program : Activity β} {next : β → Activity γ} (h : Writes [] program)
    (hnext : ∀ value, Writes lines (next value)) : Writes lines (program >>= next) :=
  h.bind hnext

/-! ## Commands -/

/-- A line is written once at most. -/
theorem writes_write (line : String) {next : Option Fault → Activity β}
    (hnext : ∀ fault, Writes [] (next fault)) :
    Writes [line] (perform (.write line) >>= next) := by
  intro deeds rest hleads
  rcases Program.leads_act.mp hleads with ⟨rfl, -⟩ | ⟨fault, more, rfl, hmore⟩
  · exact List.nil_sublist _
  · have hnothing : handedOver more = [] := List.sublist_nil.mp (hnext fault more rest hmore)
    rw [handedOver_cons, hnothing, List.append_nil]
    exact List.Sublist.refl [line]

theorem exchange_writes (line : String) (limit : Nat) (claimed : Bool) :
    Writes [line] (exchange line limit claimed) := by
  refine writes_act (by simp) fun ticket => writes_write line fun fault => ?_
  cases fault with
  | some fault => exact (ordinary_writeFault fault claimed).writes
  | none => exact writes_act (by simp) fun _ => writes_act (by simp) fun _ => writes_pure _

/-- A command that holds the gate writes its line, if anything. -/
theorem admitted_writes (config : Config) (line : String) (limit : Nat) :
    Writes [line] (admitted config line limit) := by
  refine writes_act (by simp) fun exited => ?_
  cases exited with
  | true => exact writes_pure _
  | false =>
      show Writes [line] (if config.asyncMode then _ else _)
      split
      · exact exchange_writes line limit false
      · refine writes_act (by simp) fun granted => ?_
        cases granted with
        | true => exact exchange_writes line limit true
        | false => exact writes_act (by simp) fun _ => writes_pure _

theorem runCommand_writes (config : Config) (line : String) (limit : Nat) :
    Writes [line] (runCommand config line limit) := by
  refine writes_act (by simp) fun _ => ?_
  exact (admitted_writes config line limit).bind fun _ =>
    writes_act (by simp) fun _ => writes_pure _

theorem tryRunCommand_writes (config : Config) (line : String) (limit : Nat) :
    Writes [line] (tryRunCommand config line limit) := by
  refine writes_act (by simp) fun granted => ?_
  cases granted with
  | true =>
      exact (admitted_writes config line limit).bind fun _ =>
        writes_act (by simp) fun _ => writes_pure _
  | false => exact writes_pure _

/-! ## Operations -/

theorem pause_writes (config : Config) :
    Writes ((pauseOffers config).map Offer.line) (pause config) := by
  unfold pause pauseOffers
  split
  · exact runCommand_writes config "-exec-interrupt" _
  · exact (ordinary_interrupt config).writes

theorem finish_writes : Writes lines finish := by
  refine writes_act (by simp) fun ended => ?_
  cases ended with
  | true => exact writes_act (by simp) fun _ => writes_pure _
  | false => exact writes_pure _

theorem stop_writes_offers (config : Config) :
    Writes ((stopOffers config).map Offer.line) (stop config) := by
  rw [stopOffers, List.map_append]
  have hquit : Writes ["-gdb-exit"] (do
      let _ ← tryRunCommand config "-gdb-exit" config.quitLimit
      perform .closeInput
      perform .terminate : Activity Unit) :=
    (tryRunCommand_writes config "-gdb-exit" _).bind fun _ =>
      writes_act (by simp) fun _ => writes_act (by simp) fun _ => writes_pure _
  refine writes_act (by simp) fun allowed => ?_
  cases allowed with
  | false => exact finish_writes
  | true =>
      show Writes _ (quit config >>= fun _ => finish)
      rw [← List.append_nil ((pauseOffers config).map Offer.line ++ _)]
      refine Writes.bind ?_ fun _ => finish_writes
      refine writes_act (by simp) fun running => ?_
      cases running with
      | true => exact (pause_writes config).bind fun _ => hquit
      | false => exact hquit.mono (List.sublist_append_right _ _)

theorem warmUp_writes (config : Config) (commands : List String) :
    Writes (commands.map (commandLine · [])) (warmUp config commands) := by
  induction commands with
  | nil => exact writes_pure _
  | cons command rest ih =>
      refine (runCommand_writes config (commandLine command []) _).bind fun outcome => ?_
      split
      · exact ih
      · exact writes_pure _

theorem comeUp_writes (plan : Plan) :
    Writes ((warmUpOffers plan).map Offer.line) (comeUp plan) := by
  refine writes_act (by simp) fun heard => ?_
  cases heard with
  | true =>
      have hwrites := warmUp_writes plan.config (plan.config.warmUp plan.target)
      rw [map_commandLine fun _ => id] at hwrites
      rw [map_line_warmUpOffers]
      exact hwrites
  | false =>
      refine writes_act (by simp) fun exited => ?_
      cases exited <;> exact writes_pure _

/-- The lines of a start: the warm-up, and those of a stop when it fails. -/
theorem bringUp_writes (plan : Plan) :
    Writes ((warmUpOffers plan ++ stopOffers plan.config).map Offer.line) (bringUp plan) := by
  rw [List.map_append]
  refine writes_act (by simp) fun gone => ?_
  cases gone
  case' true =>
    have hfinish : Writes [] finish := finish_writes
    refine hfinish.after ?_
    intro _
  -- from here on it does not matter whether the debugger was gone
  all_goals
    refine writes_act (by simp) fun _ => ?_
    refine (comeUp_writes plan).bind fun fault => ?_
    cases fault with
    | some fault =>
        rw [← List.append_nil ((stopOffers plan.config).map Offer.line)]
        exact (stop_writes_offers plan.config).bind fun _ => writes_pure _
    | none => exact writes_act (by simp) fun _ => writes_pure _

theorem startConnected_writes (plan : Plan) :
    Writes ((warmUpOffers plan ++ stopOffers plan.config).map Offer.line)
      (startConnected plan) := by
  refine writes_act (by simp) fun idle => ?_
  cases idle with
  | true => exact writes_act (by simp) fun _ => bringUp_writes plan
  | false => exact writes_pure _

theorem start_writes (plan : Plan) :
    Writes ((warmUpOffers plan ++ stopOffers plan.config).map Offer.line) (start plan) := by
  refine writes_act (by simp) fun idle => ?_
  cases idle with
  | true =>
      refine writes_act (by simp) fun fault => ?_
      cases fault with
      | some fault => exact writes_act (by simp) fun _ => writes_pure _
      | none => exact bringUp_writes plan
  | false => exact writes_pure _

theorem whenCommanded_writes {program : Activity Outcome} (h : Writes lines program) :
    Writes lines (whenCommanded program) := by
  refine writes_act (by simp) fun enabled => ?_
  cases enabled with
  | true => exact h
  | false =>
      refine writes_act (by simp) fun exited => ?_
      cases exited <;> exact writes_pure _

theorem call_writes (config : Config) (request : Call) :
    Writes ((request.offers config).map Offer.line) (call config request) := by
  refine whenCommanded_writes ?_
  cases request with
  | pause => exact pause_writes config
  | _ => exact runCommand_writes config _ _

theorem set_writes (config : Config) (settings : List String) :
    Writes ((settings.map Offer.chosen).map Offer.line) (Session.set config settings) := by
  induction settings with
  | nil => exact writes_pure _
  | cons setting rest ih =>
      have hsetting : Writes [(Offer.chosen setting).line]
          (whenCommanded (execute config setting)) :=
        whenCommanded_writes (runCommand_writes config _ _)
      refine hsetting.bind fun outcome => ?_
      split
      · rw [← List.append_nil (List.map Offer.line _)]
        exact ih.bind fun _ => writes_pure _
      · exact writes_pure _

/-- What is answered is not written. -/
theorem Writes.answer {program : Activity β} (h : Writes lines program) (answer : β → γ) :
    Writes lines (program >>= fun value => pure (answer value)) := by
  rw [← List.append_nil lines]
  exact h.bind fun _ => writes_pure _

end Writes

theorem Operation.writes (plan : Plan) (operation : Operation) :
    Writes ((operation.offers plan).map Offer.line) (operation.program plan) := by
  cases operation with
  | start => exact (start_writes plan).answer _
  | startConnected => exact (startConnected_writes plan).answer _
  | stop => exact (stop_writes_offers plan.config).answer fun _ => Reply.noted
  | call request => exact (call_writes plan.config request).answer _
  | set settings => exact (set_writes plan.config settings).answer _
  | command line limit => exact (runCommand_writes plan.config line limit).answer _
  | tryCommand line limit => exact (tryRunCommand_writes plan.config line limit).answer _

/-- A request writes lines that it offers, in their order. -/
theorem Request.writes (plan : Plan) (request : Request) :
    Writes ((request.offers plan).map Offer.line) (request.program plan) := by
  cases request with
  | operation asked => exact asked.writes plan
  | result outcome => exact (ordinary_handleResult outcome).writes.answer fun _ => Reply.noted
  | line text => exact (ordinary_handleLine text).writes.answer fun _ => Reply.noted
  | ended => exact finish_writes.answer fun _ => Reply.noted

/-! ## Runs -/

/-- A start has made commands possible, and another caller prints a symbol. -/
def Turn.printing (symbol : String) : List (Turn Request) :=
  [.request (.operation .startConnected)] ++ Turn.acts 0 4 ++
    [.request (.operation (.call (.print symbol)))] ++ Turn.acts 1 6

/-- A text that holds a line feed is not one command: the line that it is put into holds it too. -/
theorem line_splits :
    ¬ ∀ (host : Host) (plan : Plan) (c : Chronicle host Request Reply),
      Possible (Request.program plan) c → ∀ line ∈ written c.history, commandsRead line = 1 := by
  intro hclaim
  obtain ⟨c, hturns, hwritten⟩ : ∃ c : Chronicle Host.blind Request Reply,
      Chronicle.turns? (Request.program Plan.plain) {} (Turn.printing "a\nprint b") = some c ∧
      written c.history = ["print a\nprint b"] :=
    ⟨_, rfl, rfl⟩
  have hone := hclaim _ _ c (Possible.fresh.turns _ hturns) "print a\nprint b" (by simp [hwritten])
  exact absurd hone (by decide)

/-- In every run, lines are handed over by callers only, and a caller hands over lines that its
request offers, in their order and each of them once at most.  Of such a line the debugger reads as
many commands as there are line feeds in the texts that the caller chose, and one more. -/
theorem commands_in_lines (host : Host) (plan : Plan) (c : Chronicle host Request Reply)
    (h : Possible (Request.program plan) c) :
    (∀ actor deed line, deed ∈ deedsOf actor c.history → deed.action = .write line →
      ∃ n, actor = .caller n) ∧
    ∀ n request, c.requests[n]? = some request →
      ∃ offers : List Offer, offers.Sublist (request.offers plan) ∧
        handedOver (deedsOf (.caller n) c.history) = offers.map Offer.line ∧
        ∀ offer ∈ offers, commandsRead offer.line = lineFeedsIn offer.texts + 1 := by
  constructor
  · intro actor deed line hdeed hwrite
    cases actor with
    | caller n => exact ⟨n, rfl⟩
    | reader | watcher =>
        have hreports := h.reports (by simp) deed hdeed
        rw [hwrite] at hreports
        exact hreports.elim
  · intro n request hrequest
    obtain ⟨rest, -, hleads⟩ := h.leads_of_request hrequest
    obtain ⟨offers, hoffers, hlines⟩ :=
      List.sublist_map_iff.mp (request.writes plan _ rest hleads)
    exact ⟨offers, hoffers, hlines, fun offer _ => commandsRead_offer offer⟩

/-- A symbol without line feeds is printed by one command. -/
theorem commands_in_lines_of_print :
    ∃ c : Chronicle Host.blind Request Reply, Possible (Request.program Plan.plain) c ∧
      handedOver (deedsOf (.caller 1) c.history) = ["print a"] ∧
      ∃ offers : List Offer, offers.map Offer.line = ["print a"] ∧
        ∀ offer ∈ offers, commandsRead offer.line = lineFeedsIn offer.texts + 1 := by
  obtain ⟨c, hturns, hrequest, hhanded⟩ : ∃ c : Chronicle Host.blind Request Reply,
      Chronicle.turns? (Request.program Plan.plain) {} (Turn.printing "a") = some c ∧
      c.requests[1]? = some (.operation (.call (.print "a"))) ∧
      handedOver (deedsOf (.caller 1) c.history) = ["print a"] :=
    ⟨_, rfl, rfl, rfl⟩
  have h : Possible (Request.program Plan.plain) c := Possible.fresh.turns _ hturns
  obtain ⟨offers, -, hlines, hread⟩ := (commands_in_lines _ _ c h).2 1 _ hrequest
  exact ⟨c, h, hhanded, offers, hlines.symm.trans hhanded, hread⟩

end DebugBridge.Session
