import Haste.Store.Histories

/-!
# What `Create` leaves alone

A `Create` that answers an error has changed nothing, whichever of its
statements failed and however many had run before.  One that succeeds has
deleted the rows that make room, added its own row and moved the two counters;
every other row is the one that was there before.
-/

namespace Haste
namespace Store

open Go
open Foundation

/-- Making room lowers the counter by the sizes of the rows that go. -/
theorem Database.withRoom_storedBytes
    (db : Database)
    (maxBytes : Int)
    (size : Nat) :
    (db.withRoom maxBytes size).storedBytes =
      db.storedBytes - Cover.total Row.bytes (db.evicted maxBytes size) := by
  have isPrefix := db.evicted_isPrefix maxBytes size
  have permuted := db.pastes.filter_contains_perm
    (db.pastes.lruOrder_nodup.sublist isPrefix.sublist)
    fun row evicted => Pastes.mem_lruOrder.mp (isPrefix.subset evicted)
  change db.storedBytes - (Cover.total Row.bytes _ : Nat) = _
  rw [Cover.total_perm Row.bytes permuted]

/-- A database in which a `Create` has stored a row: the rows that make room are
gone, the new one is there, and the counters are those of the new row. -/
structure Database.AddsOnly
    (db : Database)
    (maxBytes : Int)
    (row : Row)
    (next : Database) : Prop where
  evictedPrefix : db.evicted maxBytes row.bytes <+: db.pastes.lruOrder
  rows : next.pastes.rows =
    (db.pastes.rows.filter fun old =>
      !(db.evicted maxBytes row.bytes).contains old) ++ [row]
  pasteSeq : next.pasteSeq = row.seq
  storedBytes : next.storedBytes =
    db.storedBytes - Cover.total Row.bytes (db.evicted maxBytes row.bytes) +
      row.bytes

theorem Created.addsOnly
    {options : Options}
    {env : Env}
    {request : Request}
    {db next : Database}
    {paste : Paste}
    (created : Created options env request db paste next) :
    db.AddsOnly options.maxBytes
      (paste.row (options.codec.compress request.content).1
        (options.codec.compress request.content).2) next where
  evictedPrefix := db.evicted_isPrefix _ _
  rows := created.stores.rows
  pasteSeq := created.stores.pasteSeq
  storedBytes := by
    rw [created.stores.storedBytes, Database.withRoom_storedBytes]
    rfl

/-- In every reachable state: a `Create` that answers an error leaves the store
as it was, and one that succeeds changes the database by its own row, the rows
that make room for it and the two counters only. -/
theorem create_frame
    {file : File}
    {last : Option Options}
    {before : List Op}
    {store : OpenStore}
    (reached : (System.closed file last).run before = .opened store)
    (env : Env)
    (request : Request) :
    (∀ error,
      (System.opened store).answer (.create env request) = .failed error →
      (System.opened store).step (.create env request) = .opened store) ∧
    ∀ paste,
      (System.opened store).answer (.create env request) = .created paste →
      ∃ db row,
        (System.opened store).step (.create env request) =
          .opened { store with db } ∧
        row.seq = paste.seq ∧
        row.code = paste.code ∧
        store.db.AddsOnly store.options.maxBytes row db := by
  have sound : (System.opened store).Sound :=
    System.accounted_of_run (System.sound_closed file last) reached
  constructor
  · intro error answered
    have ended := System.outcome_of_answer sound answered
    generalize (System.opened store).step (.create env request) = next
      at ended ⊢
    cases ended with
    | refused => rfl
  · intro paste answered
    obtain ⟨same, db, isSame, stepped, created⟩ :=
      System.created_of_answer sound answered
    cases isSame
    exact ⟨db, _, stepped, rfl, rfl, created.addsOnly⟩

/-- A `Create` whose insert fails after it has evicted a row and taken a number
leaves a store with one row as it was. -/
theorem create_frame_insert_fails :
    let full : Options := { Options.small with
      maxBytes := 15
      maxBytes_lt := by decide }
    let env : Env := { Env.calm 1 with
      fails := fun _ statement => statement == .insertPaste }
    ∃ store,
      (System.closed .fresh none).run
        [.openFile full none, .create (.calm 0) Request.small] =
          .opened store ∧
      store.db.evicted 15 10 ≠ [] ∧
      (System.opened store).step (.create env Request.small) =
        .opened store := by
  intro full env
  obtain ⟨store, reached, evicts, failed⟩ : ∃ store,
      (System.closed .fresh none).run
        [.openFile full none, .create (.calm 0) Request.small] =
          .opened store ∧
      store.db.evicted 15 10 ≠ [] ∧
      (System.opened store).answer (.create env Request.small) =
        .failed (.statement .insertPaste .environment) :=
    ⟨_, rfl, by decide +kernel, by decide +kernel⟩
  exact ⟨store, reached, evicts,
    (create_frame reached env Request.small).1 _ failed⟩

end Store
end Haste
