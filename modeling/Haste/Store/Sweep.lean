import Haste.Store.Access
import Haste.Store.Reads

/-!
# The sweep

One transaction applies the retention rules in order: lifetimes that have run
out, the byte cap, the last-access rule and the creation rule.  A disabled rule
is skipped.
-/

namespace Haste
namespace Store

open Go
open Foundation
open Foundation.Transaction

/-- `SweepResult`. -/
structure SweepResult where
  accessFlushed : Int
  expired : Int
  spaceEvicted : Int
  accessExpired : Int
  createExpired : Int
  storedBytes : Int
  deriving DecidableEq, Repr

/-- `SweepResult.Removed`. -/
def SweepResult.removed (result : SweepResult) : Int :=
  result.expired + result.spaceEvicted + result.accessExpired +
    result.createExpired

/-- `expires_at IS NOT NULL AND expires_at <= ?`. -/
def Row.expired (now : Int) (row : Row) : Bool :=
  match row.expiresAt with
  | none => false
  | some expires => decide (expires ≤ unix now)

/-- The cap's pass: evict what the stored bytes exceed it by. -/
def sweepRoom (options : Options) (env : Env) : Tx Int :=
  if 0 < options.maxBytes then do
    let stored ← storedBytes env
    if 0 < stored - options.maxBytes then do
      let evicted ← evict env (stored - options.maxBytes)
      pure evicted.2
    else pure 0
  else pure 0

/-- The pass of an operator's lifetime over one column, unless it is
disabled. -/
def sweepRule
    (env : Env)
    (rule : Rule)
    (ttl : Int)
    (column : Row → Int) : Tx Int :=
  let c := cutoff env.now ttl
  if 0 < c then deleteWhere env rule fun row => decide (column row ≤ c)
  else pure 0

/-- The transaction of `Sweep`, after its flush. -/
def sweepTx (options : Options) (env : Env) (flushed : Int) : Tx SweepResult := do
  execute env .beginSweep
  let expired ← deleteWhere env .lifetime (Row.expired env.now)
  let evicted ← sweepRoom options env
  let accessExpired ← sweepRule env .access options.ttlAccess Row.accessedAt
  let createExpired ← sweepRule env .creation options.ttlCreate Row.createdAt
  let stored ← storedBytes env
  execute env .commitSweep
  pure
    { accessFlushed := flushed
      expired := expired
      spaceEvicted := evicted
      accessExpired := accessExpired
      createExpired := createExpired
      storedBytes := stored }

/-- The checkpoint and the re-analysis that follow the commit, which may fail
when the rows are already gone. -/
def afterSweep (env : Env) (result : SweepResult) (db : Database) : Option Error :=
  if 0 < result.removed ∧ env.fails db .checkpoint = true then
    some (.statement .checkpoint .environment)
  else if env.fails db .optimize then
    some (.statement .optimize .environment)
  else none

/-! ## What a sweep does -/

/-- What an enabled operator's lifetime takes from one column. -/
def Row.stale (now ttl : Int) (column : Row → Int) (row : Row) : Bool :=
  decide (0 < cutoff now ttl ∧ column row ≤ cutoff now ttl)

theorem Row.expired_iff (row : Row) (now : Int) :
    row.expired now = true ↔ ¬row.unexpired now := by
  unfold Row.expired Row.unexpired
  cases row.expiresAt <;> simp

theorem Row.stale_iff
    {now ttl : Int}
    {column : Row → Int}
    {row : Row} :
    row.stale now ttl column = true ↔
      0 < cutoff now ttl ∧ column row ≤ cutoff now ttl :=
  decide_eq_true_iff

/-- What a sweep takes under an operator's lifetime, a read does not find; the
other way around it takes a cutoff that is not negative. -/
theorem not_withinTTL_iff_stale
    {now ttl : Int}
    (nonnegative : 0 ≤ cutoff now ttl)
    {column : Row → Int}
    {row : Row} :
    ¬withinTTL now ttl (column row) ↔ row.stale now ttl column = true := by
  rw [Row.stale_iff]
  unfold withinTTL
  omega

/-- The database without the rows whose own lifetime has run out. -/
def Database.withoutExpired (db : Database) (now : Int) : Database :=
  db.discard (Row.expired now)

/-- ... and within the cap. -/
def Database.withinCap (db : Database) (options : Options) (now : Int) : Database :=
  (db.withoutExpired now).withRoom options.maxBytes 0

/-- ... and without the rows not read for too long. -/
def Database.withoutUnread
    (db : Database)
    (options : Options)
    (now : Int) : Database :=
  (db.withinCap options now).discard
    (Row.stale now options.ttlAccess Row.accessedAt)

/-- ... and without the rows created too long ago: the database a sweep
leaves. -/
def Database.swept (db : Database) (options : Options) (now : Int) : Database :=
  (db.withoutUnread options now).discard
    (Row.stale now options.ttlCreate Row.createdAt)

/-- The counters of a sweep. -/
def Database.sweepResult
    (db : Database)
    (options : Options)
    (now flushed : Int) : SweepResult where
  accessFlushed := flushed
  expired := (db.pastes.rows.filter (Row.expired now)).length
  spaceEvicted := ((db.withoutExpired now).evicted options.maxBytes 0).length
  accessExpired := ((db.withinCap options now).pastes.rows.filter
    (Row.stale now options.ttlAccess Row.accessedAt)).length
  createExpired := ((db.withoutUnread options now).pastes.rows.filter
    (Row.stale now options.ttlCreate Row.createdAt)).length
  storedBytes := (db.swept options now).storedBytes

theorem Database.Accounted.withinCap
    {db : Database}
    (accounted : db.Accounted)
    (options : Options)
    (now : Int) :
    (db.withinCap options now).Accounted :=
  (accounted.discard _).withRoom _ _

theorem Database.Accounted.withoutUnread
    {db : Database}
    (accounted : db.Accounted)
    (options : Options)
    (now : Int) :
    (db.withoutUnread options now).Accounted :=
  (accounted.withinCap options now).discard _

theorem Database.Accounted.swept
    {db : Database}
    (accounted : db.Accounted)
    (options : Options)
    (now : Int) :
    (db.swept options now).Accounted :=
  (accounted.withoutUnread options now).discard _

section Steps

variable
  {options : Options}
  {env : Env}
  {db : Database}
  {raises : Error → Prop}

theorem ends_sweepRoom
    {returns : Int → Database → Prop}
    (accounted : db.Accounted)
    (done : returns (db.evicted options.maxBytes 0).length
      (db.withRoom options.maxBytes 0))
    (interrupted : ∀ error, error.InterruptedBy env → raises error) :
    Ends (sweepRoom options env) db returns raises := by
  unfold Database.withRoom Database.evicted at done
  unfold sweepRoom
  rw [ends_ite]
  constructor
  · intro capped
    simp only [if_pos capped, Nat.cast_zero, Int.add_zero] at done
    rw [ends_bind]
    refine ends_storedBytes ?_ interrupted
    rw [ends_ite]
    constructor
    · intro _
      rw [ends_bind]
      exact ends_evict accounted done interrupted
    · intro noNeed
      rw [ends_pure]
      rw [Int.toNat_eq_zero.mpr (not_lt.mp noNeed),
        Database.discard_lruPrefix_zero] at done
      simpa [Pastes.lruPrefix] using done
  · intro uncapped
    simp only [if_neg uncapped] at done
    rw [ends_pure]
    rw [Database.discard_eq_self fun row _ => by simp] at done
    simpa using done

theorem ends_sweepRule
    {rule : Rule}
    {ttl : Int}
    {column : Row → Int}
    {returns : Int → Database → Prop}
    (accounted : db.Accounted)
    (done : returns (db.pastes.rows.filter (Row.stale env.now ttl column)).length
      (db.discard (Row.stale env.now ttl column)))
    (interrupted : ∀ error, error.InterruptedBy env → raises error) :
    Ends (sweepRule env rule ttl column) db returns raises := by
  unfold sweepRule
  simp only
  rw [ends_ite]
  constructor
  · intro enabled
    have sameRule : (fun row => decide (column row ≤ cutoff env.now ttl)) =
        Row.stale env.now ttl column := by
      funext row
      simp [Row.stale, enabled]
    rw [sameRule]
    exact ends_deleteWhere accounted done interrupted
  · intro disabled
    have spared : ∀ row ∈ db.pastes.rows,
        Row.stale env.now ttl column row = false := by
      intro row _
      simp [Row.stale, disabled]
    rw [Database.discard_eq_self spared,
      List.filter_eq_nil_iff.mpr fun row present => by
        simp [spared row present]] at done
    rw [ends_pure]
    exact done

/-- A sweep leaves the swept database and answers its counters. -/
theorem ends_sweepTx
    {flushed : Int}
    {returns : SweepResult → Database → Prop}
    (accounted : db.Accounted)
    (done : returns (db.sweepResult options env.now flushed)
      (db.swept options env.now))
    (interrupted : ∀ error, error.InterruptedBy env → raises error) :
    Ends (sweepTx options env flushed) db returns raises := by
  unfold sweepTx
  rw [ends_bind]
  refine ends_execute ?_ interrupted
  rw [ends_bind]
  refine ends_deleteWhere accounted ?_ interrupted
  rw [ends_bind]
  refine ends_sweepRoom (accounted.discard _) ?_ interrupted
  rw [ends_bind]
  refine ends_sweepRule (accounted.withinCap options env.now) ?_ interrupted
  rw [ends_bind]
  refine ends_sweepRule (accounted.withoutUnread options env.now) ?_ interrupted
  rw [ends_bind]
  refine ends_storedBytes ?_ interrupted
  rw [ends_bind]
  refine ends_execute ?_ interrupted
  rw [ends_pure]
  exact done

end Steps

end Store
end Haste
