import Haste.Store.Statements
import Mathlib.Data.List.AList

/-!
# The queue of access times

Reads record when they happened in a queue, which a flush takes as a whole and
writes back in one transaction.  The transaction raises the access time of each
queued row to its queued time, in whatever order it goes through the queue.
-/

namespace Haste
namespace Store

open Foundation
open Foundation.Transaction

/-- The map `access`: the queued access time of a row, in Unix seconds. -/
abbrev Access := AList fun _ : Nat => Int

/-- One entry of a queue. -/
abbrev AccessEntry := Sigma fun _ : Nat => Int

/-- The update of one queued row, which never moves an access time back. -/
def Pastes.flushOne (pastes : Pastes) (seq : Nat) (accessedAt : Int) : Pastes :=
  pastes.updateAccess fun row =>
    if row.seq = seq ∧ row.accessedAt < accessedAt then accessedAt
    else row.accessedAt

/-- The loop of `FlushAccess` over the entries it has taken. -/
def flushEntries (env : Env) : List AccessEntry → Tx Unit
  | [] => pure ()
  | entry :: rest => do
      execute env (.flushAccess entry.1 entry.2)
      let db ← get
      set { db with pastes := db.pastes.flushOne entry.1 entry.2 }
      flushEntries env rest

/-- The transaction of `FlushAccess`.  An empty queue needs none. -/
def flushTx (env : Env) (pending : Access) : Tx Int :=
  if pending.entries.length = 0 then pure 0
  else do
    execute env .beginFlush
    execute env .prepareFlush
    flushEntries env pending.entries
    execute env .commitFlush
    pure pending.entries.length

/-- The access time of a row once queued entries are written back. -/
def Row.recency (row : Row) (entries : List AccessEntry) : Int :=
  match entries.dlookup row.seq with
  | some accessedAt => max row.accessedAt accessedAt
  | none => row.accessedAt

/-- The table once queued entries are written back. -/
def Pastes.touch (pastes : Pastes) (entries : List AccessEntry) : Pastes :=
  pastes.updateAccess fun row => row.recency entries

/-- The database once queued entries are written back. -/
def Database.touch (db : Database) (entries : List AccessEntry) : Database :=
  { db with pastes := db.pastes.touch entries }

theorem Pastes.touch_rows (pastes : Pastes) (entries : List AccessEntry) :
    (pastes.touch entries).rows =
      pastes.rows.map fun row => row.withAccess (row.recency entries) := rfl

@[simp] theorem Pastes.touch_nil (pastes : Pastes) : pastes.touch [] = pastes := by
  ext1
  exact List.map_id _

theorem Row.le_recency (row : Row) (entries : List AccessEntry) :
    row.accessedAt ≤ row.recency entries := by
  unfold Row.recency
  split
  · exact le_max_left _ _
  · exact le_rfl

theorem Pastes.totalBytes_touch (pastes : Pastes) (entries : List AccessEntry) :
    (pastes.touch entries).totalBytes = pastes.totalBytes := by
  unfold Pastes.totalBytes Cover.total
  rw [Pastes.touch_rows, List.map_map]
  rfl

theorem Database.Accounted.touch
    {db : Database}
    (accounted : db.Accounted)
    (entries : List AccessEntry) :
    (db.touch entries).Accounted := by
  have sameTotal := db.pastes.totalBytes_touch entries
  exact ⟨accounted.stored.trans (congrArg Nat.cast sameTotal.symm),
    sameTotal.trans_lt accounted.inRange⟩

/-- Writing back one entry and then the others writes back all of them. -/
theorem Pastes.touch_flushOne
    (pastes : Pastes)
    {entry : AccessEntry}
    {rest : List AccessEntry}
    (distinct : (entry :: rest).NodupKeys) :
    (pastes.flushOne entry.1 entry.2).touch rest =
      pastes.touch (entry :: rest) := by
  obtain ⟨seq, accessedAt⟩ := entry
  have fresh : rest.dlookup seq = none :=
    List.dlookup_eq_none.mpr (List.nodupKeys_cons.mp distinct).1
  ext1
  rw [touch_rows, touch_rows, flushOne, updateAccess, List.map_map]
  apply List.map_congr_left
  intro row _
  unfold Row.recency Row.withAccess
  by_cases same : row.seq = seq
  · subst same
    simp only [Function.comp_apply, fresh, List.dlookup_cons_eq, true_and]
    congr 1
    omega
  · simp only [Function.comp_apply, same, false_and, if_false, ne_eq,
      not_false_eq_true, List.dlookup_cons_ne]

section Steps

variable
  {env : Env}
  {db : Database}
  {raises : Error → Prop}

theorem ends_flushEntries
    {entries : List AccessEntry}
    {returns : Unit → Database → Prop}
    (distinct : entries.NodupKeys)
    (done : returns () (db.touch entries))
    (interrupted : ∀ error, error.InterruptedBy env → raises error) :
    Ends (flushEntries env entries) db returns raises := by
  induction entries generalizing db with
  | nil =>
      unfold flushEntries
      rw [ends_pure]
      unfold Database.touch at done
      rwa [Pastes.touch_nil] at done
  | cons entry rest inductionHypothesis =>
      unfold flushEntries
      rw [ends_bind]
      refine ends_execute ?_ interrupted
      simp only [ends_bind, ends_get, ends_set]
      apply inductionHypothesis (List.nodupKeys_cons.mp distinct).2
      unfold Database.touch at done ⊢
      rwa [Pastes.touch_flushOne _ distinct]

/-- A flush writes back the whole queue or fails with the database unchanged. -/
theorem ends_flushTx
    {pending : Access}
    {returns : Int → Database → Prop}
    (done : returns pending.entries.length (db.touch pending.entries))
    (interrupted : ∀ error, error.InterruptedBy env → raises error) :
    Ends (flushTx env pending) db returns raises := by
  unfold flushTx
  rw [ends_ite]
  constructor
  · intro noEntries
    have noneQueued : pending.entries = [] := List.length_eq_zero_iff.mp noEntries
    rw [ends_pure]
    unfold Database.touch at done
    rwa [noneQueued, Pastes.touch_nil] at done
  · intro _
    rw [ends_bind]
    refine ends_execute ?_ interrupted
    rw [ends_bind]
    refine ends_execute ?_ interrupted
    rw [ends_bind]
    refine ends_flushEntries pending.nodupKeys ?_ interrupted
    rw [ends_bind]
    refine ends_execute ?_ interrupted
    rw [ends_pure]
    exact done

end Steps

end Store
end Haste
