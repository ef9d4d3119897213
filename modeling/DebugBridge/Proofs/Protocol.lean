import DebugBridge.Program

/-!
# Protocols of programs

What a program may do next often depends on what it has done before.  A `Protocol` describes this
by stages: which actions are permitted at a stage, and which stage an action with its answer leads
to.  `Program.Follows` says that a program keeps to a protocol, whichever of the admitted answers it
gets, and where it ends.

## Main statements

* `Program.follows_bind`: a program followed by another one keeps to a protocol if the second does
  so from wherever the first may end.
* `Program.Leads.follows`: what is left of a program keeps to the protocol, from the stage that its
  deeds so far lead to.
* `Accounted.permits`: so does what each of several callers does next.
-/

namespace DebugBridge

/-- An action that was done, with its answer. -/
structure Deed (I : Interface) where
  action : I.Action
  answer : I.Answer action

/-- Stages of programs, with what is permitted at each of them. -/
structure Protocol (I : Interface) where
  Stage : Type
  Permits : Stage → I.Action → Prop
  /-- the answers that programs are prepared for -/
  Admits : (action : I.Action) → I.Answer action → Prop
  /-- the stage that an action with its answer leads to -/
  after : Stage → (action : I.Action) → I.Answer action → Stage

namespace Protocol

variable {I : Interface}

/-- The stage that deeds lead to. -/
def stageAfter (rules : Protocol I) (stage : rules.Stage) (deeds : List (Deed I)) : rules.Stage :=
  deeds.foldl (fun stage deed => rules.after stage deed.action deed.answer) stage

@[simp]
theorem stageAfter_nil (rules : Protocol I) (stage : rules.Stage) :
    rules.stageAfter stage [] = stage :=
  rfl

@[simp]
theorem stageAfter_concat (rules : Protocol I) (stage : rules.Stage) (deeds : List (Deed I))
    (deed : Deed I) :
    rules.stageAfter stage (deeds ++ [deed]) =
      rules.after (rules.stageAfter stage deeds) deed.action deed.answer := by
  simp [stageAfter]

@[simp]
theorem stageAfter_cons (rules : Protocol I) (stage : rules.Stage) (deed : Deed I)
    (deeds : List (Deed I)) :
    rules.stageAfter stage (deed :: deeds) =
      rules.stageAfter (rules.after stage deed.action deed.answer) deeds :=
  rfl

theorem stageAfter_append (rules : Protocol I) (stage : rules.Stage) (deeds more : List (Deed I)) :
    rules.stageAfter stage (deeds ++ more) =
      rules.stageAfter (rules.stageAfter stage deeds) more := by
  simp [stageAfter]

/-- Deeds that do not lead away from a stage lead back to it. -/
theorem stageAfter_eq_self {rules : Protocol I} {stage : rules.Stage} {deeds : List (Deed I)}
    (h : ∀ deed ∈ deeds, rules.after stage deed.action deed.answer = stage) :
    rules.stageAfter stage deeds = stage := by
  induction deeds with
  | nil => rfl
  | cons deed rest ih =>
      obtain ⟨hdeed, hrest⟩ := List.forall_mem_cons.mp h
      rw [stageAfter_cons, hdeed]
      exact ih hrest

/-- Each deed was permitted at the stage that the deeds before it lead to. -/
def Keeps (rules : Protocol I) (stage : rules.Stage) : List (Deed I) → Prop
  | [] => True
  | deed :: rest => rules.Permits stage deed.action ∧
      rules.Keeps (rules.after stage deed.action deed.answer) rest

theorem keeps_append {rules : Protocol I} {stage : rules.Stage} {deeds more : List (Deed I)} :
    rules.Keeps stage (deeds ++ more) ↔
      rules.Keeps stage deeds ∧ rules.Keeps (rules.stageAfter stage deeds) more := by
  induction deeds generalizing stage with
  | nil => simp [Keeps]
  | cons deed rest ih => simp [Keeps, ih, and_assoc]

/-- The protocol whose stages are what was done so far. -/
abbrev ledger (permits : List (Deed I) → I.Action → Prop) : Protocol I where
  Stage := List (Deed I)
  Permits := permits
  Admits _ _ := True
  after deeds action answer := deeds ++ [⟨action, answer⟩]

@[simp]
theorem stageAfter_ledger (permits : List (Deed I) → I.Action → Prop) (deeds more : List (Deed I)) :
    (ledger permits).stageAfter deeds more = deeds ++ more := by
  induction more generalizing deeds with
  | nil => simp
  | cons deed rest ih => rw [stageAfter_cons, ih]; simp

/-- In what keeps to a ledger, each deed was permitted after those before it. -/
theorem permits_of_keeps {permits : List (Deed I) → I.Action → Prop} {deeds more : List (Deed I)}
    {deed : Deed I} (h : (ledger permits).Keeps [] (deeds ++ deed :: more)) :
    permits deeds deed.action := by
  have hmore := (keeps_append.mp h).2
  rw [stageAfter_ledger] at hmore
  exact hmore.1

/-- The protocol with a single stage. -/
abbrev uniform (permits : I.Action → Prop) (admits : (action : I.Action) → I.Answer action → Prop) :
    Protocol I where
  Stage := Unit
  Permits _ := permits
  Admits := admits
  after _ _ _ := ()

theorem permits_of_mem {permits : I.Action → Prop}
    {admits : (action : I.Action) → I.Answer action → Prop} {deeds : List (Deed I)}
    (h : (uniform permits admits).Keeps () deeds) : ∀ deed ∈ deeds, permits deed.action := by
  induction deeds with
  | nil => exact nofun
  | cons deed rest ih => exact List.forall_mem_cons.mpr ⟨h.1, ih h.2⟩

end Protocol

namespace Program

variable {I : Interface} {α β : Type} {rules : Protocol I}

/-- The program does what is permitted, from a stage on and whichever of the admitted answers it
gets, and ends with a value at a stage that are as stated. -/
def Follows (rules : Protocol I) :
    Program I α → rules.Stage → (ends : α → rules.Stage → Prop) → Prop
  | done value, stage, ends => ends value stage
  | act action next, stage, ends => rules.Permits stage action ∧
      ∀ answer, rules.Admits action answer →
        (next answer).Follows rules (rules.after stage action answer) ends

@[simp]
theorem follows_done {value : α} {stage : rules.Stage} {ends : α → rules.Stage → Prop} :
    (done value : Program I α).Follows rules stage ends ↔ ends value stage :=
  Iff.rfl

@[simp]
theorem follows_pure {value : α} {stage : rules.Stage} {ends : α → rules.Stage → Prop} :
    (pure value : Program I α).Follows rules stage ends ↔ ends value stage :=
  Iff.rfl

@[simp]
theorem follows_act {action : I.Action} {next : I.Answer action → Program I α}
    {stage : rules.Stage} {ends : α → rules.Stage → Prop} :
    (act action next).Follows rules stage ends ↔ rules.Permits stage action ∧
      ∀ answer, rules.Admits action answer →
        (next answer).Follows rules (rules.after stage action answer) ends :=
  Iff.rfl

@[simp]
theorem follows_bind {program : Program I α} {next : α → Program I β} {stage : rules.Stage}
    {ends : β → rules.Stage → Prop} :
    (program >>= next).Follows rules stage ends ↔
      program.Follows rules stage fun value stage => (next value).Follows rules stage ends := by
  induction program generalizing stage with
  | done value => rfl
  | act action rest ih => simp [ih]

theorem Follows.mono {program : Program I α} {stage : rules.Stage}
    {ends ends' : α → rules.Stage → Prop} (h : program.Follows rules stage ends)
    (hends : ∀ value stage, ends value stage → ends' value stage) :
    program.Follows rules stage ends' := by
  induction program generalizing stage with
  | done value => exact hends value stage h
  | act action rest ih => exact ⟨h.1, fun answer hanswer => ih answer (h.2 answer hanswer)⟩

theorem Follows.bind {program : Program I α} {next : α → Program I β} {stage : rules.Stage}
    {middle : α → rules.Stage → Prop} {ends : β → rules.Stage → Prop}
    (h : program.Follows rules stage middle)
    (hnext : ∀ value stage, middle value stage → (next value).Follows rules stage ends) :
    (program >>= next).Follows rules stage ends :=
  follows_bind.mpr (h.mono hnext)

/-- The deeds lead from a program to what is left of it. -/
inductive Leads : Program I α → List (Deed I) → Program I α → Prop
  | start (program : Program I α) : Leads program [] program
  | act {program : Program I α} {deeds : List (Deed I)} {action : I.Action}
      {next : I.Answer action → Program I α} (h : Leads program deeds (.act action next))
      (answer : I.Answer action) : Leads program (deeds ++ [⟨action, answer⟩]) (next answer)

theorem Leads.follows {program rest : Program I α} {deeds : List (Deed I)} {stage : rules.Stage}
    {ends : α → rules.Stage → Prop} (h : Leads program deeds rest)
    (hdeeds : ∀ deed ∈ deeds, rules.Admits deed.action deed.answer)
    (hprogram : program.Follows rules stage ends) :
    rest.Follows rules (rules.stageAfter stage deeds) ends := by
  induction h with
  | start => exact hprogram
  | act h answer ih =>
      rw [Protocol.stageAfter_concat]
      have hbefore := ih fun deed hdeed => hdeeds deed (by simp [hdeed])
      exact hbefore.2 answer (hdeeds ⟨_, answer⟩ (by simp))

theorem Leads.keeps {program rest : Program I α} {deeds : List (Deed I)} {stage : rules.Stage}
    {ends : α → rules.Stage → Prop} (h : Leads program deeds rest)
    (hdeeds : ∀ deed ∈ deeds, rules.Admits deed.action deed.answer)
    (hprogram : program.Follows rules stage ends) : rules.Keeps stage deeds := by
  induction h with
  | start => trivial
  | @act before action next h answer ih =>
      have hbefore : ∀ deed ∈ before, rules.Admits deed.action deed.answer :=
        fun deed hdeed => hdeeds deed (List.mem_append_left _ hdeed)
      exact Protocol.keeps_append.mpr ⟨ih hbefore, (h.follows hbefore hprogram).1, trivial⟩

theorem Leads.trans {program middle rest : Program I α} {deeds more : List (Deed I)}
    (h : Leads program deeds middle) (hmore : Leads middle more rest) :
    Leads program (deeds ++ more) rest := by
  induction hmore with
  | start => simpa using h
  | act hmore answer ih =>
      rw [← List.append_assoc]
      exact ih.act answer

@[simp]
theorem leads_done {value : α} {deeds : List (Deed I)} {rest : Program I α} :
    Leads (done value) deeds rest ↔ deeds = [] ∧ rest = done value := by
  constructor
  · intro h
    induction h with
    | start => exact ⟨rfl, rfl⟩
    | act h answer ih => cases ih.2
  · rintro ⟨rfl, rfl⟩
    exact .start _

/-- A program that does something has done nothing yet, or that first. -/
theorem leads_act {action : I.Action} {next : I.Answer action → Program I α}
    {deeds : List (Deed I)} {rest : Program I α} :
    Leads (act action next) deeds rest ↔ (deeds = [] ∧ rest = act action next) ∨
      ∃ answer more, deeds = ⟨action, answer⟩ :: more ∧ Leads (next answer) more rest := by
  constructor
  · intro h
    induction h with
    | start => exact .inl ⟨rfl, rfl⟩
    | act h last ih =>
        rcases ih with ⟨rfl, heq⟩ | ⟨answer, more, rfl, hmore⟩
        · cases heq
          exact .inr ⟨last, [], rfl, .start _⟩
        · exact .inr ⟨answer, _, rfl, hmore.act last⟩
  · rintro (⟨rfl, rfl⟩ | ⟨answer, more, rfl, hmore⟩)
    · exact .start _
    · exact ((Leads.start (act action next)).act answer).trans hmore

/-- Where a program was when it did one of its deeds. -/
theorem Leads.exists_act {program rest : Program I α} {deed : Deed I} {first more : List (Deed I)}
    (h : Leads program (first ++ deed :: more) rest) :
    ∃ next, Leads program first (.act deed.action next) ∧ Leads (next deed.answer) more rest := by
  induction first generalizing program with
  | nil =>
      cases program with
      | done value => exact absurd (leads_done.mp h).1 (List.cons_ne_nil _ _)
      | act action next =>
          obtain ⟨answer, later, heq, hlater⟩ := (leads_act.mp h).resolve_left (by simp)
          cases heq
          exact ⟨next, .start _, hlater⟩
  | cons earlier others ih =>
      cases program with
      | done value => exact absurd (leads_done.mp h).1 (List.cons_ne_nil _ _)
      | act action next =>
          obtain ⟨answer, later, heq, hlater⟩ := (leads_act.mp h).resolve_left (by simp)
          cases heq
          obtain ⟨following, hfirst, hrest⟩ := ih hlater
          exact ⟨following, leads_act.mpr (.inr ⟨answer, others, rfl, hfirst⟩), hrest⟩

/-- Of two programs one after the other, the first has not ended yet, or the second has begun. -/
theorem Leads.of_bind {program : Program I α} {next : α → Program I β} {deeds : List (Deed I)}
    {rest : Program I β} (h : Leads (program >>= next) deeds rest) :
    (∃ left, Leads program deeds left ∧ rest = left >>= next) ∨
      ∃ first value more, deeds = first ++ more ∧ Leads program first (done value) ∧
        Leads (next value) more rest := by
  induction program generalizing deeds with
  | done value => exact .inr ⟨[], value, deeds, rfl, .start _, h⟩
  | act action following ih =>
      rcases leads_act.mp h with ⟨rfl, rfl⟩ | ⟨answer, more, rfl, hmore⟩
      · exact .inl ⟨_, .start _, rfl⟩
      rcases ih answer hmore with ⟨left, hleft, rfl⟩ | ⟨first, value, later, rfl, hfirst, hlater⟩
      · exact .inl ⟨left, leads_act.mpr (.inr ⟨answer, more, rfl, hleft⟩), rfl⟩
      · exact .inr ⟨_ :: first, value, later, rfl,
          leads_act.mpr (.inr ⟨answer, first, rfl, hfirst⟩), hlater⟩

/-! ## Programs that always do the same kinds of things -/

/-- Everything that the program may do is permitted. -/
def OnlyDoes (permitted : I.Action → Prop) : Program I α → Prop
  | done _ => True
  | act action next => permitted action ∧ ∀ answer, (next answer).OnlyDoes permitted

/-- A program that does nothing to leave its stage keeps to the protocol. -/
theorem OnlyDoes.follows {permitted : I.Action → Prop} {program : Program I α}
    (h : program.OnlyDoes permitted) {stage : rules.Stage}
    (hpermits : ∀ action, permitted action → rules.Permits stage action)
    (hafter : ∀ action answer, permitted action → rules.after stage action answer = stage) :
    program.Follows rules stage fun _ last => last = stage := by
  induction program with
  | done value => rfl
  | act action rest ih =>
      refine ⟨hpermits action h.1, ?_⟩
      intro answer _
      rw [hafter action answer h.1]
      exact ih answer (h.2 answer)

/-- A program that only does what is permitted at every stage keeps to the rules. -/
theorem OnlyDoes.follows_of_forall {permitted : I.Action → Prop} {program : Program I α}
    (h : program.OnlyDoes permitted)
    (hpermits : ∀ stage action, permitted action → rules.Permits stage action)
    (stage : rules.Stage) : program.Follows rules stage fun _ _ => True := by
  induction program generalizing stage with
  | done value => trivial
  | act action rest ih => exact ⟨hpermits _ _ h.1, fun answer _ => ih answer (h.2 answer) _⟩

theorem OnlyDoes.bind {permitted : I.Action → Prop} {program : Program I α}
    {next : α → Program I β} (h : program.OnlyDoes permitted)
    (hnext : ∀ value, (next value).OnlyDoes permitted) :
    (program >>= next).OnlyDoes permitted := by
  induction program with
  | done value => exact hnext value
  | act action rest ih => exact ⟨h.1, fun answer => ih answer (h.2 answer)⟩

theorem OnlyDoes.mono {permitted permitted' : I.Action → Prop} {program : Program I α}
    (h : program.OnlyDoes permitted) (hpermitted : ∀ action, permitted action → permitted' action) :
    program.OnlyDoes permitted' := by
  induction program with
  | done value => trivial
  | act action rest ih => exact ⟨hpermitted _ h.1, fun answer => ih answer (h.2 answer)⟩

/-- What was done and what is left of the program is permitted. -/
theorem Leads.onlyDoes {permitted : I.Action → Prop} {program rest : Program I α}
    {deeds : List (Deed I)} (h : Leads program deeds rest) (hprogram : program.OnlyDoes permitted) :
    (∀ deed ∈ deeds, permitted deed.action) ∧ rest.OnlyDoes permitted := by
  induction h with
  | start => exact ⟨nofun, hprogram⟩
  | act h answer ih =>
      obtain ⟨hdeeds, hrest⟩ := ih
      refine ⟨?_, hrest.2 answer⟩
      simpa [or_imp, forall_and] using ⟨hdeeds, hrest.1⟩

/-- A program that only does what is permitted whatever was done before keeps to the ledger. -/
theorem OnlyDoes.follows_ledger {permits : List (Deed I) → I.Action → Prop}
    {permitted : I.Action → Prop} {program : Program I α} (h : program.OnlyDoes permitted)
    (hpermits : ∀ deeds action, permitted action → permits deeds action) (deeds : List (Deed I)) :
    program.Follows (Protocol.ledger permits) deeds fun _ last =>
      ∃ more, last = deeds ++ more ∧ ∀ deed ∈ more, permitted deed.action := by
  induction program generalizing deeds with
  | done value => exact ⟨[], by simp, nofun⟩
  | act action rest ih =>
      refine ⟨hpermits deeds action h.1, ?_⟩
      intro answer _
      refine (ih answer (h.2 answer) (deeds ++ [⟨action, answer⟩])).mono ?_
      rintro _ _ ⟨more, rfl, hmore⟩
      exact ⟨⟨action, answer⟩ :: more, by simp, List.forall_mem_cons.mpr ⟨h.1, hmore⟩⟩

/-! ## What a program has done when it has ended -/

/-- However the actions of the program are answered, when it has ended its value and its deeds are
as stated. -/
def Yields : Program I α → (α → List (Deed I) → Prop) → Prop
  | done value, ends => ends value []
  | act action next, ends =>
      ∀ answer, (next answer).Yields fun value deeds => ends value (⟨action, answer⟩ :: deeds)

@[simp]
theorem yields_done {value : α} {ends : α → List (Deed I) → Prop} :
    (done value : Program I α).Yields ends ↔ ends value [] :=
  Iff.rfl

@[simp]
theorem yields_pure {value : α} {ends : α → List (Deed I) → Prop} :
    (pure value : Program I α).Yields ends ↔ ends value [] :=
  Iff.rfl

@[simp]
theorem yields_act {action : I.Action} {next : I.Answer action → Program I α}
    {ends : α → List (Deed I) → Prop} :
    (act action next).Yields ends ↔ ∀ answer, (next answer).Yields fun value deeds =>
      ends value (⟨action, answer⟩ :: deeds) :=
  Iff.rfl

@[simp]
theorem yields_bind {program : Program I α} {next : α → Program I β}
    {ends : β → List (Deed I) → Prop} :
    (program >>= next).Yields ends ↔ program.Yields fun value deeds =>
      (next value).Yields fun value' more => ends value' (deeds ++ more) := by
  induction program generalizing ends with
  | done value => rfl
  | act action rest ih => simp [ih]

theorem Yields.mono {program : Program I α} {ends ends' : α → List (Deed I) → Prop}
    (h : program.Yields ends) (hends : ∀ value deeds, ends value deeds → ends' value deeds) :
    program.Yields ends' := by
  induction program generalizing ends ends' with
  | done value => exact hends value [] h
  | act action rest ih => exact fun answer => ih answer (h answer) fun value deeds => hends value _

theorem Yields.bind {program : Program I α} {next : α → Program I β}
    {middle : α → List (Deed I) → Prop} {ends : β → List (Deed I) → Prop}
    (h : program.Yields middle)
    (hnext : ∀ value deeds, middle value deeds →
      (next value).Yields fun value' more => ends value' (deeds ++ more)) :
    (program >>= next).Yields ends :=
  yields_bind.mpr (h.mono hnext)

theorem Yields.map {program : Program I α} {ends : α → List (Deed I) → Prop}
    (h : program.Yields ends) (f : α → β) :
    (program >>= fun value => pure (f value)).Yields fun result deeds =>
      ∃ value, result = f value ∧ ends value deeds := by
  refine h.bind ?_
  intro value deeds hends
  exact ⟨value, rfl, by simpa using hends⟩

/-- What holds of all values and deeds holds at the end. -/
theorem yields_of_forall {program : Program I α} {ends : α → List (Deed I) → Prop}
    (h : ∀ value deeds, ends value deeds) : program.Yields ends := by
  induction program generalizing ends with
  | done value => exact h value []
  | act action rest ih => exact fun answer => ih answer fun value deeds => h value _

/-- Its deeds lead from a program to its end. -/
theorem yields_leads (program : Program I α) :
    program.Yields fun value deeds => Leads program deeds (done value) := by
  induction program with
  | done value => exact .start _
  | act action rest ih =>
      intro answer
      refine (ih answer).mono ?_
      intro value deeds hleads
      exact leads_act.mpr (.inr ⟨answer, deeds, rfl, hleads⟩)

theorem OnlyDoes.yields {permitted : I.Action → Prop} {program : Program I α}
    (h : program.OnlyDoes permitted) :
    program.Yields fun _ deeds => ∀ deed ∈ deeds, permitted deed.action :=
  (yields_leads program).mono fun _ _ hleads => (hleads.onlyDoes h).1

/-- A program that keeps to a ledger has entered there, when it has ended, what it has done. -/
theorem Yields.follows_ledger {permits : List (Deed I) → I.Action → Prop} {program : Program I α}
    {ends : α → List (Deed I) → Prop} {deeds : List (Deed I)} {any : α → List (Deed I) → Prop}
    (h : program.Yields ends)
    (hfollows : program.Follows (Protocol.ledger permits) deeds any) :
    program.Follows (Protocol.ledger permits) deeds fun value last =>
      ∃ more, last = deeds ++ more ∧ ends value more := by
  induction program generalizing deeds ends with
  | done value => exact ⟨[], by simp, h⟩
  | act action rest ih =>
      refine ⟨hfollows.1, ?_⟩
      intro answer _
      refine (ih answer (h answer) (hfollows.2 answer trivial)).mono ?_
      rintro value _ ⟨more, rfl, hends⟩
      exact ⟨⟨action, answer⟩ :: more, by simp, hends⟩

/-- What a program that has ended has done. -/
theorem Yields.of_leads {program : Program I α} {ends : α → List (Deed I) → Prop}
    (h : program.Yields ends) {deeds : List (Deed I)} {value : α}
    (hleads : Leads program deeds (done value)) : ends value deeds := by
  induction program generalizing deeds ends with
  | done other =>
      obtain ⟨rfl, hdone⟩ := leads_done.mp hleads
      cases hdone
      exact h
  | act action next ih =>
      rcases leads_act.mp hleads with ⟨-, hdone⟩ | ⟨answer, more, rfl, hmore⟩
      · cases hdone
      · exact ih answer (h answer) hmore

end Program

/-! ## Callers -/

section Callers

variable {I : Interface} {ρ α : Type} {program : ρ → Program I α} {requests : List ρ}
  {callers : List (Program I α)} {deeds : Nat → List (Deed I)}

/-- Each caller has a request, and what it has done leads from the program of that request to what
is left of it. -/
structure Accounted (program : ρ → Program I α) (requests : List ρ)
    (callers : List (Program I α)) (deeds : Nat → List (Deed I)) : Prop where
  length_eq : requests.length = callers.length
  leads : ∀ i rest, callers[i]? = some rest →
    ∃ r, requests[i]? = some r ∧ (program r).Leads (deeds i) rest
  absent : ∀ i, callers.length ≤ i → deeds i = []

namespace Accounted

theorem empty (hdeeds : ∀ i, deeds i = []) : Accounted program [] [] deeds :=
  ⟨rfl, fun i rest hi => by simp at hi, fun i _ => hdeeds i⟩

/-- A caller comes with a request; it has done nothing yet. -/
theorem enter (h : Accounted program requests callers deeds) (r : ρ) :
    Accounted program (requests ++ [r]) (callers ++ [program r]) deeds where
  length_eq := by simp [h.length_eq]
  leads i rest hi := by
    rcases Nat.lt_trichotomy i callers.length with hlt | rfl | hgt
    · rw [List.getElem?_append_left hlt] at hi
      rw [List.getElem?_append_left (h.length_eq ▸ hlt)]
      exact h.leads i rest hi
    · simp only [List.getElem?_concat_length, Option.some.injEq] at hi
      subst hi
      refine ⟨r, by simp [← h.length_eq], ?_⟩
      rw [h.absent _ (Nat.le_refl _)]
      exact .start _
    · rw [List.getElem?_eq_none (by simp; omega)] at hi
      cases hi
  absent i hi := h.absent i (by simp at hi; omega)

/-- A caller does something. -/
theorem act (h : Accounted program requests callers deeds) {caller : Nat} {action : I.Action}
    {next : I.Answer action → Program I α} (hcaller : callers[caller]? = some (.act action next))
    {answer : I.Answer action} {after : Nat → List (Deed I)}
    (hdeed : after caller = deeds caller ++ [⟨action, answer⟩])
    (hothers : ∀ i, i ≠ caller → after i = deeds i) :
    Accounted program requests (callers.set caller (next answer)) after where
  length_eq := by rw [List.length_set, h.length_eq]
  leads i left hi := by
    rw [List.getElem?_set] at hi
    by_cases hne : caller = i
    · subst hne
      obtain ⟨r, hr, hleads⟩ := h.leads _ _ hcaller
      have hlt := (List.getElem?_eq_some_iff.mp hcaller).1
      obtain rfl : next answer = left := by simpa [hlt] using hi
      exact ⟨r, hr, hdeed ▸ hleads.act answer⟩
    · rw [hothers i (Ne.symm hne)]
      exact h.leads i left (by simpa [hne] using hi)
  absent i hi := by
    rw [List.length_set] at hi
    have hlt := (List.getElem?_eq_some_iff.mp hcaller).1
    rw [hothers i (by omega)]
    exact h.absent i hi

/-- What the caller with a request has done leads from the program of the request to what is left of
it. -/
theorem leads_of_request (h : Accounted program requests callers deeds) {caller : Nat} {r : ρ}
    (hrequest : requests[caller]? = some r) :
    ∃ rest, callers[caller]? = some rest ∧ (program r).Leads (deeds caller) rest := by
  have hlt : caller < callers.length :=
    h.length_eq ▸ (List.getElem?_eq_some_iff.mp hrequest).1
  have hcaller := List.getElem?_eq_getElem hlt
  obtain ⟨other, hother, hleads⟩ := h.leads caller _ hcaller
  cases hrequest.symm.trans hother
  exact ⟨_, hcaller, hleads⟩

/-- The deeds are the same, as when no caller has done anything. -/
theorem congr (h : Accounted program requests callers deeds) {after : Nat → List (Deed I)}
    (hafter : ∀ i, after i = deeds i) : Accounted program requests callers after :=
  funext hafter ▸ h

variable {rules : Protocol I} {stage : rules.Stage}

/-- What a caller has done was permitted at the time, if the programs keep to the protocol. -/
theorem keeps (h : Accounted program requests callers deeds)
    (hprogram : ∀ r, ∃ ends, (program r).Follows rules stage ends) (caller : Nat)
    (hdeeds : ∀ deed ∈ deeds caller, rules.Admits deed.action deed.answer) :
    rules.Keeps stage (deeds caller) := by
  cases hcaller : callers[caller]? with
  | none =>
      rw [h.absent caller (List.getElem?_eq_none_iff.mp hcaller)]
      trivial
  | some rest =>
      obtain ⟨r, -, hleads⟩ := h.leads caller rest hcaller
      obtain ⟨ends, hfollows⟩ := hprogram r
      exact hleads.keeps hdeeds hfollows

/-- What a caller does next is permitted, if the programs keep to the protocol. -/
theorem permits (h : Accounted program requests callers deeds)
    (hprogram : ∀ r, ∃ ends, (program r).Follows rules stage ends) {caller : Nat}
    {action : I.Action} {next : I.Answer action → Program I α}
    (hcaller : callers[caller]? = some (.act action next))
    (hdeeds : ∀ deed ∈ deeds caller, rules.Admits deed.action deed.answer) :
    rules.Permits (rules.stageAfter stage (deeds caller)) action := by
  obtain ⟨r, -, hleads⟩ := h.leads caller _ hcaller
  obtain ⟨ends, hfollows⟩ := hprogram r
  exact (hleads.follows hdeeds hfollows).1

end Accounted

end Callers

end DebugBridge
