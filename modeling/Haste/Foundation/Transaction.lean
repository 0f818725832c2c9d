import Mathlib.Init

/-!
# Transactions

A transaction is a program over a state that may stop with an error, in which
case nothing of it is kept.  `Ends` states what holds in either case, and is
computed along the program: through a sequence, a test and the primitive
reads, writes and errors.  `bind_congr` compares two programs step by step.
-/

namespace Foundation
namespace Transaction

variable {State Error Value Result : Type}

/-- A program that reads and writes a state and may stop with an error. -/
abbrev Program (State Error Value : Type) := StateT State (Except Error) Value

/-- Run a program as one transaction: an error leaves the state as it was. -/
def transact
    (program : Program State Error Value)
    (state : State) : Except Error Value × State :=
  match program state with
  | .ok (value, next) => (.ok value, next)
  | .error error => (.error error, state)

/-- From this state the program either returns a value and a state of one kind,
or stops with an error of another. -/
def Ends
    (program : Program State Error Value)
    (state : State)
    (returns : Value → State → Prop)
    (raises : Error → Prop) : Prop :=
  match program state with
  | .ok (value, next) => returns value next
  | .error error => raises error

section Rules

variable
  {state : State}
  {returns : Value → State → Prop}
  {raises : Error → Prop}

@[simp] theorem ends_pure (value : Value) :
    Ends (pure value : Program State Error Value) state returns raises ↔
      returns value state := Iff.rfl

@[simp] theorem ends_throw (error : Error) :
    Ends (throw error : Program State Error Value) state returns raises ↔
      raises error := Iff.rfl

@[simp] theorem ends_get {returns : State → State → Prop} :
    Ends (get : Program State Error State) state returns raises ↔
      returns state state := Iff.rfl

@[simp] theorem ends_set {returns : PUnit → State → Prop} (next : State) :
    Ends (set next : Program State Error PUnit) state returns raises ↔
      returns ⟨⟩ next := Iff.rfl

/-- A sequence ends as its second part does after its first. -/
@[simp] theorem ends_bind
    {returns : Result → State → Prop}
    (first : Program State Error Value)
    (rest : Value → Program State Error Result) :
    Ends (first >>= rest) state returns raises ↔
      Ends first state
        (fun value next => Ends (rest value) next returns raises) raises := by
  change Ends (StateT.bind first rest) state returns raises ↔ _
  unfold Ends StateT.bind
  cases first state <;> rfl

@[simp] theorem ends_ite
    (test : Prop)
    [Decidable test]
    (left right : Program State Error Value) :
    Ends (if test then left else right) state returns raises ↔
      (test → Ends left state returns raises) ∧
        (¬test → Ends right state returns raises) := by
  by_cases holds : test <;> simp [holds]

/-- A condition that always holds holds at every end. -/
theorem ends_of_forall
    {program : Program State Error Value}
    (holds : ∀ value next, returns value next) :
    Ends program state returns fun _ => True := by
  unfold Ends
  cases program state with
  | ok outcome => exact holds _ _
  | error error => trivial

/-- A transaction keeps what both its ends establish. -/
theorem transact_of_ends
    {program : Program State Error Value}
    (outcome : Except Error Value → State → Prop)
    (ends : Ends program state
      (fun value next => outcome (.ok value) next)
      (fun error => outcome (.error error) state)) :
    outcome (transact program state).1 (transact program state).2 := by
  unfold Ends at ends
  unfold transact
  revert ends
  cases program state with
  | ok result => exact id
  | error error => exact id

/-- Two sequences agree when their first parts do and their second parts do
wherever the first may end. -/
theorem bind_congr
    {first other : Program State Error Value}
    {rest otherRest : Value → Program State Error Result}
    (same : other state = first state)
    (ends : Ends first state
      (fun value next => otherRest value next = rest value next)
      fun _ => True) :
    (other >>= otherRest) state = (first >>= rest) state := by
  change StateT.bind other otherRest state = StateT.bind first rest state
  unfold StateT.bind
  unfold Ends at ends
  rw [same]
  revert ends
  cases first state with
  | ok result => exact id
  | error error => exact fun _ => rfl

end Rules

end Transaction
end Foundation
