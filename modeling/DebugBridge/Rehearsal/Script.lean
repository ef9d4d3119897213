import DebugBridge.Fault
import DebugBridge.Record

/-!
# Scripts

A script says how a debugger behaves that is only played: what it prints in answer to each command
and to each interrupt.  Rules are tried in order, and a rule may be used up.
-/

namespace DebugBridge.Rehearsal

/-- Something that a played debugger does. -/
inductive Item
  | line (text : String)
  | errorLine (text : String)
  | endOfOutput
  | exit
  /-- make reading its output fail -/
  | failure (reason : String)
deriving DecidableEq, Repr

/-- Whether a line answers a command. -/
def Item.isResult : Item → Bool
  | line text => match Record.read text with
    | .ok (some (.result _)) => true
    | _ => false
  | _ => false

/-- Items up to the first that answers a command, and those behind it. -/
def splitReply : List Item → List Item × List Item
  | [] => ([], [])
  | item :: rest =>
      if item.isResult then ([item], rest)
      else (item :: (splitReply rest).1, (splitReply rest).2)

/-- How some commands are answered. -/
structure Rule where
  /-- the command, if only one is meant -/
  equal : Option String
  /-- what the commands begin with -/
  start : Option String
  /-- what the commands hold somewhere -/
  part : Option String
  /-- how often the rule can still be used -/
  uses : Option Nat
  reply : List Item
  /-- why the command cannot be written, if it cannot -/
  writeFailure : Option String
deriving DecidableEq, Repr

def occursIn (part : List Char) : List Char → Bool
  | [] => part.isEmpty
  | c :: rest => part.isPrefixOf (c :: rest) || occursIn part rest

/-- Whether a rule is meant for a command and not used up. -/
def Rule.applies (rule : Rule) (command : String) : Bool :=
  rule.uses != some 0 &&
    (rule.equal.map (· == command)).getD true &&
    (rule.start.map fun s => s.toList.isPrefixOf command.toList).getD true &&
    (rule.part.map fun s => occursIn s.toList command.toList).getD true

/-- What happens on an interrupt. -/
inductive Reaction
  | print (items : List Item)
  | unsupported
  /-- the operating system refuses -/
  | failure (reason : String)
deriving DecidableEq, Repr

/-- The behaviour of a played debugger. -/
structure Script where
  rules : List Rule
  /-- the answer where no rule applies -/
  fallback : List Item
  /-- what happens on the first interrupt, the second, … -/
  interrupts : List Reaction
deriving DecidableEq, Repr

namespace Script

/-- The first rule that applies to a command, and the rules with that one used once. -/
def use? (command : String) : List Rule → Option (Rule × List Rule)
  | [] => none
  | rule :: rest =>
      if rule.applies command then
        some (rule, { rule with uses := rule.uses.map (· - 1) } :: rest)
      else (use? command rest).map fun (used, others) => (used, rule :: others)

/-- The answer to a command: why it cannot be written, or what is printed. -/
def answer (command : String) (script : Script) : Script × Except String (List Item) :=
  match use? command script.rules with
  | none => (script, .ok script.fallback)
  | some (rule, rules) =>
      ({ script with rules }, match rule.writeFailure with
        | some reason => .error reason
        | none => .ok rule.reply)

/-- What happens on an interrupt, by its number from zero. -/
def reaction (number : Nat) (script : Script) : Reaction :=
  script.interrupts[number]?.getD (.print [])

end Script

/-- The fault that a reaction amounts to, if any. -/
def Reaction.fault? : Reaction → Option Fault
  | print _ => none
  | unsupported => some .interruptUnsupported
  | failure reason => some (.io reason)

/-- What is printed in reaction to an interrupt. -/
def Reaction.items : Reaction → List Item
  | print items => items
  | _ => []

end DebugBridge.Rehearsal
