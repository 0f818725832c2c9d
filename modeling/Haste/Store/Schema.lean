import Haste.Go.Strings
import Mathlib.Data.List.Sort

/-!
# The database of pastes

A table of pastes with a unique sequence number and a unique code, and two
counters.  A `Pastes` value carries both uniqueness constraints, so a delete,
an insert or a change of access times cannot leave a table without them.
-/

namespace Haste
namespace Store

open Go

/-- A row of `pastes`.  Times are Unix seconds. -/
structure Row where
  seq : Nat
  code : Bytes
  body : Bytes
  codec : Int
  bytes : Nat
  chars : Int
  rawBytes : Int
  language : Bytes
  title : Bytes
  createdAt : Int
  accessedAt : Int
  expiresAt : Option Int
  deriving DecidableEq, Repr

/-- `ORDER BY accessed_at, seq`. -/
def Row.leastRecent (left right : Row) : Prop :=
  left.accessedAt < right.accessedAt ∨
    left.accessedAt = right.accessedAt ∧ left.seq ≤ right.seq

instance : DecidableRel Row.leastRecent :=
  fun _ _ => inferInstanceAs (Decidable (_ ∨ _))

/-- A row with another access time. -/
def Row.withAccess (row : Row) (accessedAt : Int) : Row :=
  { row with accessedAt }

/-- The table `pastes`, with its primary key and the index
`pastes_code_idx`. -/
@[ext] structure Pastes where
  rows : List Row
  seqs_nodup : (rows.map Row.seq).Nodup
  codes_nodup : (rows.map Row.code).Nodup

/-- The committed content of a database: the table and the two counters. -/
structure Database where
  pastes : Pastes
  pasteSeq : Nat
  storedBytes : Int

/-- Which uniqueness constraint an insert breaks. -/
inductive Conflict
  | seq
  | code
  deriving DecidableEq, Repr

namespace Pastes

/-- The empty table. -/
def empty : Pastes := ⟨[], List.nodup_nil, List.nodup_nil⟩

variable (pastes : Pastes)

/-- The rows in least-recently-used order. -/
def lruOrder : List Row := pastes.rows.insertionSort Row.leastRecent

/-- `DELETE FROM pastes WHERE` a condition on the row. -/
def delete (doomed : Row → Bool) : Pastes where
  rows := pastes.rows.filter fun row => !doomed row
  seqs_nodup := pastes.seqs_nodup.sublist (List.filter_sublist.map _)
  codes_nodup := pastes.codes_nodup.sublist (List.filter_sublist.map _)

/-- `INSERT INTO pastes`, which a unique column may refuse. -/
def insert (row : Row) : Except Conflict Pastes :=
  if takenSeq : row.seq ∈ pastes.rows.map Row.seq then .error .seq
  else if takenCode : row.code ∈ pastes.rows.map Row.code then .error .code
  else .ok {
    rows := pastes.rows ++ [row]
    seqs_nodup := by
      rw [List.map_append, List.nodup_append_comm]
      exact List.nodup_cons.mpr ⟨takenSeq, pastes.seqs_nodup⟩
    codes_nodup := by
      rw [List.map_append, List.nodup_append_comm]
      exact List.nodup_cons.mpr ⟨takenCode, pastes.codes_nodup⟩ }

/-- `UPDATE pastes SET accessed_at`, with the new time of every row. -/
def updateAccess (accessedAt : Row → Int) : Pastes where
  rows := pastes.rows.map fun row => row.withAccess (accessedAt row)
  seqs_nodup := by
    rw [List.map_map]
    exact pastes.seqs_nodup
  codes_nodup := by
    rw [List.map_map]
    exact pastes.codes_nodup

end Pastes
end Store
end Haste
