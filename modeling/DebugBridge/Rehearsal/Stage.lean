import DebugBridge.Bridge.Server
import DebugBridge.Rehearsal.Script
import DebugBridge.Session.Launch
import DebugBridge.Text.Lines

/-!
# The stage of a rehearsal

A bridge with its callers among debuggers that are only played.  What a debugger makes of an action
of its session follows from the script (`Stage.fault?` and `Stage.follow`).  A debugger performs the
items of its replies one at a time (`Stage.play?`).  Of a reply, the items behind its first result
record are held back for the time being.

Time is virtual and stands still until a caller gives up waiting (`Stage.wait?`).  Printing and
reading take no time, except that the call that starts a debugger is slow: a greeting is over before
it goes on, unless it has more than `headStart` characters (`Stage.greet?`).
-/

namespace DebugBridge.Rehearsal

open Session (Machine)

/-- Something that a played debugger has noticed. -/
inductive Deed
  | command (line : String)
  | interrupt
deriving DecidableEq, Repr

/-- How many characters a debugger can print before the call that has started it goes on. -/
def headStart : Nat := 10000

/-- How many characters an item comes to when it is printed. -/
def Item.extent : Item → Nat
  | .line text | .errorLine text => text.length + 1
  | _ => 1

structure Player where
  /-- whether it is a process: its exit ends its output, and lines go through streams -/
  isProcess : Bool
  /-- how many characters it can still print before its callers go on -/
  lead : Nat := headStart
  /-- how many interrupts it has received -/
  interrupted : Nat := 0
  /-- what it does next -/
  due : List Item := []
  /-- what it does when the calls of the moment have returned -/
  held : List Item := []
  /-- what it has noticed, first to last -/
  deeds : List Deed := []

/-- A start of a debugger: in which directory, if any was chosen, and with which arguments. -/
structure Start where
  directory : Option String
  arguments : List String
deriving DecidableEq, Repr

/-- A rehearsal in progress. -/
structure Stage (machine : Machine) (α : Type) where
  /-- whether a debugger of this name is played; others are started on the machine -/
  isPlayed : String → Bool
  /-- what a played debugger does first -/
  greeting : List Item
  script : Script
  system : System (Bridge.arena machine.isFile) α := { state := ({} : Bridge.State) }
  /-- when each caller began to wait -/
  since : List Nat := []
  players : List Player := []
  /-- the virtual time, in milliseconds -/
  now : Nat := 0
  starts : List Start := []

namespace Stage

variable {machine : Machine} {α : Type}

def bridge (stage : Stage machine α) : Bridge.State :=
  stage.system.state

def member? (stage : Stage machine α) (id : Nat) : Option Bridge.Member :=
  stage.bridge.members[id]?

def onPlayer (id : Nat) (change : Player → Player) (stage : Stage machine α) : Stage machine α :=
  { stage with players := stage.players.modify id change }

/-- Lets something happen, if it can. -/
def happen? (stage : Stage machine α) (happening : Bridge.Happening) : Option (Stage machine α) :=
  (stage.system.step? (.happen happening)).map fun system => { stage with system }

/-- Lets things happen to a session. -/
def happenTo (id : Nat) (happenings : List Session.Happening) (stage : Stage machine α) :
    Stage machine α :=
  happenings.foldl (fun stage happening => (stage.happen? (.on id happening)).getD stage) stage

/-! ## Sessions and callers -/

/-- Adds a session that no request has made, with its host and its debugger. -/
def addSession (plan : Session.Plan) (host : Option Session.Host) (player : Player)
    (stage : Stage machine α) : Stage machine α :=
  let stage := (stage.happen? (.adopt plan host)).getD stage
  { stage with players := stage.players ++ [player] }

/-- A new caller, with its number. -/
def enter (program : Bridge.Activity α) (stage : Stage machine α) : Stage machine α × Nat :=
  let system := (stage.system.step? (.enter program)).getD stage.system
  ({ stage with system, since := stage.since ++ [stage.now] }, stage.since.length)

def value? (stage : Stage machine α) (caller : Nat) : Option α :=
  stage.system.value? caller

/-! ## Actions -/

/-- What becomes of a launch. -/
def launchFault? (stage : Stage machine α) (id : Nat) : Option Fault :=
  (stage.member? id).bind fun member =>
    member.plan.launchFault? { machine with
      startError? := fun directory program =>
        if stage.isPlayed program then none else machine.startError? directory program }

/-- What becomes of the next interrupt. -/
def reaction (stage : Stage machine α) (id : Nat) : Reaction :=
  stage.script.reaction ((stage.players[id]?.map Player.interrupted).getD 0)

/-- The fault with which the surroundings answer an action. -/
def fault? (stage : Stage machine α) : Bridge.Action → Option Fault
  | .on id .launch => stage.launchFault? id
  | .on _ (.write line) =>
      match (stage.script.answer line).2 with
      | .error reason => some (.io reason)
      | .ok _ => none
  | .on id (.interrupt _) | .on id (.settle _ _) => (stage.reaction id).fault?
  | _ => none

/-- The lines that arrive when a line is sent to a debugger or by it. -/
def transmitted (isProcess : Bool) (text : String) : List String :=
  if isProcess then Text.linesOf text else [text]

/-- A debugger reads a line. -/
def hear (id : Nat) (stage : Stage machine α) (line : String) : Stage machine α :=
  let (script, answer) := stage.script.answer line
  let (due, held) := splitReply (answer.toOption.getD [])
  { stage with script }.onPlayer id fun player =>
    { player with
      lead := 0
      due := player.due ++ due
      held := player.held ++ held
      deeds := player.deeds ++ [Deed.command line] }

/-- A debugger is interrupted. -/
def noteInterrupt (id : Nat) (stage : Stage machine α) : Stage machine α :=
  let items := (stage.reaction id).items
  stage.onPlayer id fun player =>
    { player with
      interrupted := player.interrupted + 1
      due := player.due ++ items
      deeds := player.deeds ++ [Deed.interrupt] }

/-- How many interrupts a session has asked for. -/
def interruptsOf (stage : Stage machine α) (id : Nat) : Nat :=
  ((stage.member? id).map (·.session.state.wire.interrupts)).getD 0

/-- The debugger of a session has been launched. -/
def noteLaunch (id : Nat) (stage : Stage machine α) : Stage machine α :=
  match stage.member? id with
  | none => stage
  | some member =>
      let start : Start := ⟨member.plan.directory?, member.plan.config.launchArguments⟩
      { stage with starts := stage.starts ++ [start] }.onPlayer id fun player =>
        { player with due := player.due ++ stage.greeting }

/-- What the debugger makes of an action; `fault` is the one that the action met. -/
def follow (before : Stage machine α) (fault : Option Fault) (stage : Stage machine α) :
    Bridge.Action → Stage machine α
  | .create _ => { stage with players := stage.players ++ [{ isProcess := true }] }
  | .on id .launch => if fault.isNone then stage.noteLaunch id else stage
  | .on id (.write line) =>
      match fault with
      | some _ => { stage with script := (stage.script.answer line).1 }
      | none =>
          let isProcess := ((stage.players[id]?).map Player.isProcess).getD false
          (transmitted isProcess line).foldl (hear id) stage
  | .on id (.interrupt _) | .on id (.settle _ _) =>
      if stage.interruptsOf id = before.interruptsOf id then stage else stage.noteInterrupt id
  | .on id .terminate => stage.happenTo id [.close .output, .reportGone]
  | _ => stage

/-- Whether an action has to wait for the debuggers. -/
def isDeferred (stage : Stage machine α) : Bridge.Action → Bool
  | .on _ (.write _) => stage.players.any (!·.due.isEmpty)
  | _ => false

/-- The stage after a move of a caller. -/
def resume (stage : Stage machine α) (caller : Nat) (action : Bridge.Action)
    (system : System (Bridge.arena machine.isFile) α) : Stage machine α :=
  let next := { stage with system, since := stage.since.set caller stage.now }
  stage.follow (stage.fault? action) next action

/-- Whether a caller waits for the target to stop. -/
def awaitsStop (stage : Stage machine α) (caller : Nat) : Bool :=
  match stage.system.next? caller with
  | some ⟨.on _ (.settle _ _), _⟩ => true
  | _ => false

/-- Lets a caller give up waiting. -/
def expire? (stage : Stage machine α) (caller : Nat) : Option (Stage machine α) := do
  let ⟨action, _⟩ ← stage.system.next? caller
  let system ← stage.system.step? (.expire caller (stage.fault? action))
  return stage.resume caller action system

/-- Lets a caller do its next action, unless it has to wait; a wait of no time is over at once. -/
def act? (stage : Stage machine α) (caller : Nat) : Option (Stage machine α) := do
  let ⟨action, _⟩ ← stage.system.next? caller
  if stage.isDeferred action then none
  match stage.system.step? (.act caller (stage.fault? action)) with
  | some system => stage.resume caller action system
  | none => if Bridge.Action.limit? action = some 0 then stage.expire? caller else none

/-- When a caller gives up waiting, if it does. -/
def deadline? (stage : Stage machine α) (caller : Nat) : Option Nat := do
  let ⟨action, _⟩ ← stage.system.next? caller
  let limit ← Bridge.Action.limit? action
  return (← stage.since[caller]?) + limit

/-- The callers that give up some time, with that time. -/
def deadlines (stage : Stage machine α) : List (Nat × Nat) :=
  (List.range stage.since.length).filterMap fun caller =>
    (stage.deadline? caller).map fun time => (time, caller)

/-- The earliest of some times; of equal ones, the first. -/
def earliest? : List (Nat × Nat) → Option (Nat × Nat)
  | [] => none
  | first :: rest =>
      some (rest.foldl (fun best other => if other.1 < best.1 then other else best) first)

/-- Lets time pass until a caller gives up waiting. -/
def wait? (stage : Stage machine α) : Option (Stage machine α) := do
  let (time, caller) ← earliest? stage.deadlines
  { stage with now := max stage.now time }.expire? caller

/-! ## Debuggers -/

/-- What an item comes to for a session. -/
def Item.happenings (isProcess : Bool) : Item → List Session.Happening
  | .line text => (transmitted isProcess text).map fun line => .print .output (.line line)
  | .errorLine text => (transmitted isProcess text).map fun line => .print .error (.line line)
  | .endOfOutput => [.close .output]
  | .exit => if isProcess then [.close .output, .reportGone] else [.reportGone]
  | .failure reason => [.print .output (.failure reason)]

/-- Whether the session of a debugger is connected to it. -/
def isConnected (stage : Stage machine α) (id : Nat) : Bool :=
  ((stage.member? id).map (·.session.state.wire.connected)).getD false

/-- The next item of the debugger of a session, once it is connected. -/
def item? (stage : Stage machine α) (id : Nat) : Option Item := do
  let player ← stage.players[id]?
  if stage.isConnected id then player.due.head? else none

/-- Lets the debugger of a session perform an item, with what is left of its head start then. -/
def perform (id : Nat) (item : Item) (lead : Nat) (stage : Stage machine α) : Stage machine α :=
  let isProcess := ((stage.players[id]?).map Player.isProcess).getD false
  (stage.onPlayer id fun player => { player with lead, due := player.due.tail }).happenTo id
    (Item.happenings isProcess item)

/-- Lets the debugger of a session perform its next item while its callers are on their way, as far
as its head start reaches. -/
def greet? (stage : Stage machine α) (id : Nat) : Option (Stage machine α) := do
  let item ← stage.item? id
  let player ← stage.players[id]?
  if item.extent ≤ player.lead then stage.perform id item (player.lead - item.extent) else none

/-- Lets the debugger of a session perform its next item.  Its callers have caught up with it. -/
def play? (stage : Stage machine α) (id : Nat) : Option (Stage machine α) :=
  (stage.item? id).map fun item => stage.perform id item 0

/-- A debugger does something of its own accord, once it is connected. -/
def emit (id : Nat) (items : List Item) (stage : Stage machine α) : Stage machine α :=
  if stage.isConnected id then
    stage.onPlayer id fun player => { player with due := player.due ++ items }
  else stage

/-- Ends the holding back of items. -/
def releaseHeld (stage : Stage machine α) : Stage machine α :=
  (List.range stage.players.length).foldl (fun stage id =>
    let ended := ((stage.member? id).map fun m =>
      m.session.state.wire.output.closed || m.session.state.wire.output.finished).getD true
    stage.onPlayer id fun player =>
      { player with held := [], due := if ended then player.due else player.due ++ player.held })
    stage

end Stage

end DebugBridge.Rehearsal
