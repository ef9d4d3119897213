/-!
# Programs over atomic actions

A party that shares state with others is a program: a tree of atomic actions, each with a
continuation for every answer.  What other parties do between two actions of a program is left
open, so that the same program can be run alone, under a schedule, or in every interleaving.
-/

namespace DebugBridge

/-- What the programs of a kind can do: atomic actions, each with a type of answers. -/
structure Interface where
  Action : Type
  Answer : Action → Type

/-- A program that ends with a value. -/
inductive Program (I : Interface) (α : Type) : Type
  | done (value : α)
  /-- the program does something and goes on with the answer -/
  | act (action : I.Action) (next : I.Answer action → Program I α)

namespace Program

variable {I J : Interface} {α β : Type}

/-- A program followed by another one. -/
protected def bind : Program I α → (α → Program I β) → Program I β
  | done value, next => next value
  | act action rest, next => act action fun answer => (rest answer).bind next

instance : Monad (Program I) where
  pure := done
  bind := Program.bind

@[simp]
theorem bind_done (value : α) (next : α → Program I β) :
    (done value : Program I α) >>= next = next value :=
  rfl

@[simp]
theorem bind_act (action : I.Action) (rest : I.Answer action → Program I α)
    (next : α → Program I β) :
    act action rest >>= next = act action fun answer => rest answer >>= next :=
  rfl

theorem bind_pure_self (program : Program I α) : program >>= pure = program := by
  induction program with
  | done value => rfl
  | act action rest ih => exact congrArg (act action) (funext ih)

theorem bind_bind {γ : Type} (program : Program I α) (first : α → Program I β)
    (second : β → Program I γ) :
    program >>= first >>= second = program >>= fun value => first value >>= second := by
  induction program with
  | done value => rfl
  | act action rest ih => exact congrArg (act action) (funext ih)

instance : LawfulMonad (Program I) :=
  LawfulMonad.mk' (Program I)
    (fun program => bind_pure_self program)
    (fun _ _ => rfl)
    (fun program first second => bind_bind program first second)

/-- The program that does one thing. -/
def perform (action : I.Action) : Program I (I.Answer action) :=
  act action done

/-- The program with each of its actions done as an action of another kind. -/
def lift (embed : I.Action → J.Action)
    (answer : ∀ action, J.Answer (embed action) → I.Answer action) : Program I α → Program J α
  | done value => done value
  | act action next => act (embed action) fun a => (next (answer action a)).lift embed answer

/-- The value of a program that has ended. -/
def value? : Program I α → Option α
  | done value => some value
  | act _ _ => none

end Program

end DebugBridge
