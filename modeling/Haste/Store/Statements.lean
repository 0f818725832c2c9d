import Haste.Foundation.Cover
import Haste.Foundation.Transaction
import Haste.Store.Errors
import Haste.Store.Schema

/-!
# Statements of a write transaction

A write transaction is a program over the database in which any statement may
fail.  What fails is left open: the environment of a call decides it from the
statement and the database it meets, so a theorem about every environment is
one about a failure at any point.

`Database.discard` says what deleting rows should do to the database: the rows
go, and the counter of stored bytes is lowered by exactly their sizes.
-/

namespace Haste
namespace Store

open Go
open Foundation
open Foundation.Transaction

/-- `Options`: the limits, the operator's lifetimes, the codec and the code
generator.  The byte cap is a 64-bit integer. -/
structure Options where
  maxChars : Int
  maxBytes : Int
  ttlAccess : Int
  ttlCreate : Int
  codec : Compress.Codec
  ids : Id.Generator
  maxBytes_lt : maxBytes < 2 ^ 63

/-- How write admission turns a call away. -/
inductive Refusal
  | busy
  | cancelled
  deriving DecidableEq, Repr

/-- The error of a call that was not admitted. -/
def Refusal.error : Refusal → Error
  | .busy => .busy
  | .cancelled => .cancelled

/-- What one call meets: the clock, the answer of write admission, and the
statements that fail. -/
structure Env where
  now : Int
  admission : Option Refusal
  fails : Database → Statement → Bool

/-- A call at this time that is admitted and in which nothing fails. -/
def Env.calm (now : Int) : Env where
  now := now
  admission := none
  fails _ _ := false

/-- Options without a cap or an operator's lifetime, for concrete runs. -/
def Options.small : Options where
  maxChars := 15
  maxBytes := 0
  ttlAccess := 0
  ttlCreate := 0
  codec := { zstd := Compress.rawFrames, level := 19 }
  ids := Id.newGenerator (fun _ => Vector.replicate 32 0) 1 []
  maxBytes_lt := by decide

/-- The same with ten seconds to live since the last access. -/
def Options.brief : Options :=
  { Options.small with ttlAccess := 10 * second }

/-- A write transaction. -/
abbrev Tx (Value : Type) := Program Database Error Value

/-- A statement that does nothing but succeed or fail. -/
def execute (env : Env) (statement : Statement) : Tx Unit := do
  let db ← get
  if env.fails db statement then throw (.statement statement .environment)
  else pure ()

/-- An error that says no more than that a statement failed, which the
environment makes it do somewhere. -/
def Error.InterruptedBy (error : Error) (env : Env) : Prop :=
  ∃ db statement, env.fails db statement = true ∧
    error = .statement statement .environment

/-- Nothing fails in a call. -/
def Env.Clean (env : Env) : Prop :=
  ∀ db statement, env.fails db statement = false

theorem Env.clean_calm (now : Int) : (Env.calm now).Clean := fun _ _ => rfl

theorem Env.Clean.not_interrupted
    {env : Env}
    (clean : env.Clean)
    {error : Error} :
    ¬error.InterruptedBy env := by
  rintro ⟨db, statement, fails, _⟩
  rw [clean] at fails
  cases fails

section Primitives

variable
  {env : Env}
  {db : Database}
  {raises : Error → Prop}

theorem ends_execute
    {statement : Statement}
    {returns : Unit → Database → Prop}
    (done : returns () db)
    (interrupted : ∀ error, error.InterruptedBy env → raises error) :
    Ends (execute env statement) db returns raises := by
  unfold execute
  simp only [ends_bind, ends_get, ends_ite, ends_throw, ends_pure]
  exact ⟨fun fails => interrupted _ ⟨db, statement, fails, rfl⟩, fun _ => done⟩

/-- `storedBytes`. -/
def storedBytes (env : Env) : Tx Int := do
  execute env .readStoredBytes
  let db ← get
  pure db.storedBytes

theorem ends_storedBytes
    {returns : Int → Database → Prop}
    (done : returns db.storedBytes db)
    (interrupted : ∀ error, error.InterruptedBy env → raises error) :
    Ends (storedBytes env) db returns raises := by
  unfold storedBytes
  rw [ends_bind]
  exact ends_execute done interrupted

/-- `addStoredBytes`: the counter never goes below zero, and a sum beyond 64
bits is refused by the integer column. -/
def addStoredBytes (env : Env) (delta : Int) : Tx Unit := do
  execute env (.updateStoredBytes delta)
  let db ← get
  if 2 ^ 63 ≤ db.storedBytes + delta then
    throw (.statement (.updateStoredBytes delta) .integerOverflow)
  else
    set { db with storedBytes := max 0 (db.storedBytes + delta) }

/-- An adjustment below 64 bits is made, with zero as its floor. -/
theorem ends_addStoredBytes_max
    {delta : Int}
    {returns : Unit → Database → Prop}
    (inRange : db.storedBytes + delta < 2 ^ 63)
    (done : returns () { db with storedBytes := max 0 (db.storedBytes + delta) })
    (interrupted : ∀ error, error.InterruptedBy env → raises error) :
    Ends (addStoredBytes env delta) db returns raises := by
  unfold addStoredBytes
  rw [ends_bind]
  refine ends_execute ?_ interrupted
  simp only [ends_bind, ends_get, ends_ite, ends_throw, ends_set]
  exact ⟨fun beyond => absurd inRange (not_lt.mpr beyond), fun _ => done⟩

/-- An adjustment that stays in range adds exactly its amount. -/
theorem ends_addStoredBytes
    {delta : Int}
    {returns : Unit → Database → Prop}
    (nonnegative : 0 ≤ db.storedBytes + delta)
    (inRange : db.storedBytes + delta < 2 ^ 63)
    (done : returns () { db with storedBytes := db.storedBytes + delta })
    (interrupted : ∀ error, error.InterruptedBy env → raises error) :
    Ends (addStoredBytes env delta) db returns raises := by
  apply ends_addStoredBytes_max inRange ?_ interrupted
  rw [max_eq_right nonnegative]
  exact done

/-- `deleteReturning`: the total size and the number of the rows deleted. -/
def deleteReturning
    (env : Env)
    (statement : Statement)
    (doomed : Pastes → Row → Bool) : Tx (Int × Int) := do
  execute env statement
  let db ← get
  let gone := db.pastes.rows.filter (doomed db.pastes)
  set { db with pastes := db.pastes.delete (doomed db.pastes) }
  pure ((gone.map fun row => (row.bytes : Int)).sum, gone.length)

theorem sum_bytes (rows : List Row) :
    (rows.map fun row => (row.bytes : Int)).sum = Cover.total Row.bytes rows := by
  induction rows with
  | nil => rfl
  | cons row rest inductionHypothesis =>
      rw [List.map_cons, List.sum_cons, inductionHypothesis, Cover.total_cons,
        Nat.cast_add]

theorem ends_deleteReturning
    {statement : Statement}
    {doomed : Pastes → Row → Bool}
    {returns : Int × Int → Database → Prop}
    (done : returns
      (Cover.total Row.bytes (db.pastes.rows.filter (doomed db.pastes)),
        (db.pastes.rows.filter (doomed db.pastes)).length)
      { db with pastes := db.pastes.delete (doomed db.pastes) })
    (interrupted : ∀ error, error.InterruptedBy env → raises error) :
    Ends (deleteReturning env statement doomed) db returns raises := by
  unfold deleteReturning
  rw [ends_bind]
  refine ends_execute ?_ interrupted
  simp only [ends_bind, ends_get, ends_set, ends_pure, sum_bytes]
  exact done

end Primitives

/-! ## Exact accounting -/

/-- The total size of the rows. -/
def Pastes.totalBytes (pastes : Pastes) : Nat :=
  Cover.total Row.bytes pastes.rows

/-- The counter of stored bytes is the total size of the rows, and fits its
column. -/
structure Database.Accounted (db : Database) : Prop where
  stored : db.storedBytes = db.pastes.totalBytes
  inRange : db.pastes.totalBytes < 2 ^ 63

/-- Delete rows and lower the counter by exactly their sizes. -/
def Database.discard (db : Database) (doomed : Row → Bool) : Database where
  pastes := db.pastes.delete doomed
  pasteSeq := db.pasteSeq
  storedBytes := db.storedBytes -
    (Cover.total Row.bytes (db.pastes.rows.filter doomed) : Nat)

/-- Deleting no row changes nothing. -/
theorem Database.discard_eq_self
    {db : Database}
    {doomed : Row → Bool}
    (spared : ∀ row ∈ db.pastes.rows, doomed row = false) :
    db.discard doomed = db := by
  have noneGone : db.pastes.rows.filter doomed = [] :=
    List.filter_eq_nil_iff.mpr fun row present => by simp [spared row present]
  have sameTable : db.pastes.delete doomed = db.pastes := by
    ext1
    exact List.filter_eq_self.mpr fun row present => by
      simp [spared row present]
  unfold Database.discard
  rw [noneGone, sameTable, Cover.total_nil, Nat.cast_zero, Int.sub_zero]

theorem Pastes.totalBytes_delete (pastes : Pastes) (doomed : Row → Bool) :
    Cover.total Row.bytes (pastes.rows.filter doomed) +
      (pastes.delete doomed).totalBytes = pastes.totalBytes :=
  Cover.total_filter_add_total_filter_not Row.bytes doomed pastes.rows

theorem Database.Accounted.discard
    {db : Database}
    (accounted : db.Accounted)
    (doomed : Row → Bool) :
    (db.discard doomed).Accounted := by
  have split := db.pastes.totalBytes_delete doomed
  have stored := accounted.stored
  have inRange := accounted.inRange
  constructor
  · simp only [Database.discard]
    omega
  · simp only [Database.discard]
    omega

/-- The rows whose condition a rule deletes, with the counter in step:
`deleteWhere`. -/
def deleteWhere (env : Env) (rule : Rule) (condition : Row → Bool) : Tx Int := do
  let deleted ← deleteReturning env (.delete rule) fun _ => condition
  if deleted.2 = 0 then pure 0
  else do
    addStoredBytes env (-deleted.1)
    pure deleted.2

/-- `deleteWhere` discards the rows that meet the condition and counts them. -/
theorem ends_deleteWhere
    {env : Env}
    {db : Database}
    {rule : Rule}
    {condition : Row → Bool}
    {returns : Int → Database → Prop}
    {raises : Error → Prop}
    (accounted : db.Accounted)
    (done : returns (db.pastes.rows.filter condition).length
      (db.discard condition))
    (interrupted : ∀ error, error.InterruptedBy env → raises error) :
    Ends (deleteWhere env rule condition) db returns raises := by
  have split := db.pastes.totalBytes_delete condition
  have stored := accounted.stored
  have inRange := accounted.inRange
  unfold deleteWhere
  rw [ends_bind]
  refine ends_deleteReturning ?_ interrupted
  rw [ends_ite]
  constructor
  · intro noneDeleted
    have noRows : db.pastes.rows.filter condition = [] := by
      rwa [Nat.cast_eq_zero, List.length_eq_zero_iff] at noneDeleted
    rw [ends_pure]
    simpa [Database.discard, noRows] using done
  · intro _
    rw [ends_bind]
    refine ends_addStoredBytes ?_ ?_ done interrupted
    · simp only
      omega
    · simp only
      omega

end Store
end Haste
