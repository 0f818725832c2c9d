import Haste.Store.Statements

/-!
# Least-recently-used eviction

Eviction works in rounds: a round orders at most `evictBatch` candidates by
access time, deletes those whose predecessors do not cover the need, and lowers
the need by what was freed.  Since a cover may be taken batch by batch, the
rounds together delete exactly the cover of the whole order.
-/

namespace Haste
namespace Store

open Foundation
open Foundation.Transaction

/-! ## The order of eviction -/

instance : Std.Total Row.leastRecent :=
  ⟨fun _ _ => by unfold Row.leastRecent; omega⟩

instance : IsTrans Row Row.leastRecent :=
  ⟨fun _ _ _ => by unfold Row.leastRecent; omega⟩

namespace Pastes

variable (pastes : Pastes)

theorem rows_nodup : pastes.rows.Nodup :=
  pastes.seqs_nodup.of_map

variable {pastes}

theorem eq_of_seq_eq
    {left right : Row}
    (leftPresent : left ∈ pastes.rows)
    (rightPresent : right ∈ pastes.rows)
    (sameSeq : left.seq = right.seq) :
    left = right :=
  List.inj_on_of_nodup_map pastes.seqs_nodup leftPresent rightPresent sameSeq

theorem eq_of_code_eq
    {left right : Row}
    (leftPresent : left ∈ pastes.rows)
    (rightPresent : right ∈ pastes.rows)
    (sameCode : left.code = right.code) :
    left = right :=
  List.inj_on_of_nodup_map pastes.codes_nodup leftPresent rightPresent sameCode

@[simp] theorem mem_lruOrder {row : Row} :
    row ∈ pastes.lruOrder ↔ row ∈ pastes.rows :=
  List.mem_insertionSort _

theorem lruOrder_nodup : pastes.lruOrder.Nodup :=
  (List.perm_insertionSort _ _).nodup_iff.mpr pastes.rows_nodup

theorem lruOrder_pairwise : pastes.lruOrder.Pairwise Row.leastRecent :=
  List.pairwise_insertionSort _ _

theorem total_lruOrder :
    Cover.total Row.bytes pastes.lruOrder = pastes.totalBytes :=
  Cover.total_perm Row.bytes (List.perm_insertionSort _ _)

/-- The survivors of a delete keep their order. -/
theorem lruOrder_delete (doomed : Row → Bool) :
    (pastes.delete doomed).lruOrder =
      pastes.lruOrder.filter fun row => !doomed row := by
  refine List.Perm.eq_of_pairwise ?_
    lruOrder_pairwise (lruOrder_pairwise.sublist List.filter_sublist) ?_
  · intro left right leftPresent rightPresent leftFirst rightFirst
    rw [mem_lruOrder] at leftPresent
    have rightKept : right ∈ (pastes.delete doomed).rows :=
      ((List.perm_insertionSort _ _).filter _).mem_iff.mp rightPresent
    apply eq_of_seq_eq leftPresent rightKept
    unfold Row.leastRecent at leftFirst rightFirst
    omega
  · exact (List.perm_insertionSort _ _).trans
      ((List.perm_insertionSort _ _).filter _).symm

/-- Delete the listed rows. -/
def remove (pastes : Pastes) (gone : List Row) : Pastes :=
  pastes.delete fun row => gone.contains row

@[simp] theorem remove_nil : pastes.remove [] = pastes := by
  ext1
  simp [remove, delete]

theorem remove_remove (first second : List Row) :
    (pastes.remove first).remove second = pastes.remove (first ++ second) := by
  ext1
  simp only [remove, delete, List.filter_filter]
  apply List.filter_congr
  intro row _
  rw [List.contains_eq_mem, List.contains_eq_mem, List.contains_eq_mem]
  by_cases inFirst : row ∈ first <;>
    by_cases inSecond : row ∈ second <;>
    simp [inFirst, inSecond]

/-- Listed rows of the table are found again by their sequence numbers. -/
theorem seq_contains_eq
    {gone : List Row}
    (present : ∀ row ∈ gone, row ∈ pastes.rows)
    {row : Row}
    (rowPresent : row ∈ pastes.rows) :
    (gone.map Row.seq).contains row.seq = gone.contains row := by
  rw [List.contains_eq_mem, List.contains_eq_mem, decide_eq_decide]
  constructor
  · intro listed
    obtain ⟨found, foundListed, sameSeq⟩ := List.mem_map.mp listed
    rwa [← eq_of_seq_eq (present found foundListed) rowPresent sameSeq]
  · exact List.mem_map_of_mem

/-- The rows found through a list are the listed ones. -/
theorem filter_contains_perm
    {gone : List Row}
    (distinct : gone.Nodup)
    (present : ∀ row ∈ gone, row ∈ pastes.rows) :
    (pastes.rows.filter fun row => gone.contains row).Perm gone := by
  apply (List.perm_ext_iff_of_nodup (pastes.rows_nodup.filter _) distinct).mpr
  intro row
  rw [List.mem_filter, List.contains_eq_mem, decide_eq_true_eq]
  exact ⟨And.right, fun listed => ⟨present row listed, listed⟩⟩

/-- Removing a first part of the order leaves the rest of it. -/
theorem lruOrder_remove_prefix
    {gone : List Row}
    (isPrefix : gone <+: pastes.lruOrder) :
    (pastes.remove gone).lruOrder = pastes.lruOrder.drop gone.length := by
  obtain ⟨rest, split⟩ := isPrefix
  have distinct := pastes.lruOrder_nodup
  rw [remove, lruOrder_delete]
  rw [← split] at distinct ⊢
  rw [List.drop_left, List.filter_append]
  have noneKept : (gone.filter fun row => !gone.contains row) = [] := by
    simp
  have allKept : (rest.filter fun row => !gone.contains row) = rest := by
    apply List.filter_eq_self.mpr
    intro row inRest
    have apart := List.disjoint_of_nodup_append distinct
    simpa using fun inGone => apart inGone inRest
  rw [noneKept, allKept, List.nil_append]

/-- The least-recently-used rows that cover a need. -/
def lruPrefix (pastes : Pastes) (need : Nat) : List Row :=
  Cover.cover Row.bytes pastes.lruOrder need

theorem lruPrefix_nodup (need : Nat) : (pastes.lruPrefix need).Nodup :=
  pastes.lruOrder_nodup.sublist (Cover.cover_prefix _ _ _).sublist

theorem mem_of_mem_lruPrefix
    {need : Nat}
    {row : Row}
    (covered : row ∈ pastes.lruPrefix need) :
    row ∈ pastes.rows :=
  mem_lruOrder.mp ((Cover.cover_prefix _ _ _).subset covered)

end Pastes

/-! ## The rounds -/

/-- `evictBatch`. -/
def evictBatch : Nat := 64

/-- `evictLRU`: of the first candidates in order, those whose running total
without themselves is below the need. -/
def evictLRU (limit : Nat) (need : Int) (pastes : Pastes) : List Nat :=
  ((Cover.running Row.bytes 0 (pastes.lruOrder.take limit)).filter fun entry =>
    decide (((entry.2 - entry.1.bytes : Nat) : Int) < need)).map
      fun entry => entry.1.seq

/-- The loop of `evict`. -/
def evictLoop (env : Env) (need : Int) : Nat → Int → Int → Tx (Int × Int)
  | 0, _, _ => throw .diverged
  | fuel + 1, freed, removed =>
      if freed < need then do
        let batch ← deleteReturning env (.evict (need - freed))
          fun pastes row =>
            (evictLRU evictBatch (need - freed) pastes).contains row.seq
        if batch.2 = 0 then pure (freed, removed)
        else evictLoop env need fuel (freed + batch.1) (removed + batch.2)
      else pure (freed, removed)

/-- `evict`.  Every round but the last deletes a row, so one round more than
there are rows is enough. -/
def evict (env : Env) (need : Int) : Tx (Int × Int) := do
  let db ← get
  let evicted ← evictLoop env need (db.pastes.rows.length + 1) 0 0
  if 0 < evicted.1 then do
    addStoredBytes env (-evicted.1)
    pure evicted
  else pure evicted

/-- A round deletes the cover of its candidates. -/
theorem evictLRU_eq (limit : Nat) (need : Int) (pastes : Pastes) :
    evictLRU limit need pastes =
      (Cover.cover Row.bytes (pastes.lruOrder.take limit) need.toNat).map
        Row.seq := by
  rw [← Nat.sub_zero need.toNat, ← Cover.filter_running, List.map_map]
  unfold evictLRU
  congr 1
  apply List.filter_congr
  intro entry _
  rw [decide_eq_decide, Int.lt_toNat]

section Rounds

variable
  {env : Env}
  {db : Database}
  {returns : Int × Int → Database → Prop}
  {raises : Error → Prop}

theorem mem_of_mem_candidates
    (pastes : Pastes)
    (limit need : Nat)
    (row : Row)
    (covered : row ∈ Cover.cover Row.bytes (pastes.lruOrder.take limit) need) :
    row ∈ pastes.rows :=
  Pastes.mem_lruOrder.mp
    (List.mem_of_mem_take ((Cover.cover_prefix _ _ _).subset covered))

/-- The statement of a round removes the cover of its candidates and answers
its size. -/
theorem ends_evictRound
    {need : Int}
    (done :
      let gone := Cover.cover Row.bytes (db.pastes.lruOrder.take evictBatch)
        need.toNat
      returns (Cover.total Row.bytes gone, gone.length)
        { db with pastes := db.pastes.remove gone })
    (interrupted : ∀ error, error.InterruptedBy env → raises error) :
    Ends (deleteReturning env (.evict need) fun pastes row =>
      (evictLRU evictBatch need pastes).contains row.seq) db returns raises := by
  simp only at done
  have present := mem_of_mem_candidates db.pastes evictBatch need.toNat
  generalize candidates :
    Cover.cover Row.bytes (db.pastes.lruOrder.take evictBatch) need.toNat = gone
    at done present
  have distinct : gone.Nodup := by
    rw [← candidates]
    exact (db.pastes.lruOrder_nodup.sublist (List.take_sublist _ _)).sublist
      (Cover.cover_prefix _ _ _).sublist
  have found : ∀ row ∈ db.pastes.rows,
      (evictLRU evictBatch need db.pastes).contains row.seq =
        gone.contains row := by
    intro row rowPresent
    rw [evictLRU_eq, candidates]
    exact Pastes.seq_contains_eq present rowPresent
  have listed := Pastes.filter_contains_perm distinct present
  refine ends_deleteReturning ?_ interrupted
  have sameTable : (db.pastes.delete fun row =>
      (evictLRU evictBatch need db.pastes).contains row.seq) =
        db.pastes.remove gone := by
    ext1
    exact List.filter_congr fun row rowPresent =>
      congrArg Bool.not (found row rowPresent)
  rw [List.filter_congr found, Cover.total_perm _ listed, listed.length_eq,
    sameTable]
  exact done

/-- The rounds together remove the cover of the whole order. -/
theorem ends_evictLoop
    {need freed removed : Int}
    {fuel : Nat}
    (enough : db.pastes.rows.length < fuel)
    (done :
      let gone := db.pastes.lruPrefix (need - freed).toNat
      returns (freed + Cover.total Row.bytes gone, removed + gone.length)
        { db with pastes := db.pastes.remove gone })
    (interrupted : ∀ error, error.InterruptedBy env → raises error) :
    Ends (evictLoop env need fuel freed removed) db returns raises := by
  induction fuel generalizing db freed removed with
  | zero => exact absurd enough (Nat.not_lt_zero _)
  | succ fuel inductionHypothesis =>
      unfold evictLoop
      rw [ends_ite]
      constructor
      · intro short
        rw [ends_bind]
        refine ends_evictRound ?_ interrupted
        have rounds := Cover.cover_eq_batch_append Row.bytes db.pastes.lruOrder
          (need - freed).toNat evictBatch
        have inOrder := (Cover.cover_prefix Row.bytes
          (db.pastes.lruOrder.take evictBatch) (need - freed).toNat).trans
            (List.take_prefix _ _)
        have emptyRound := Cover.cover_eq_nil_iff Row.bytes
          (db.pastes.lruOrder.take evictBatch) (need - freed).toNat
        have present := mem_of_mem_candidates db.pastes evictBatch
          (need - freed).toNat
        simp only [Pastes.lruPrefix] at done ⊢
        generalize Cover.cover Row.bytes (db.pastes.lruOrder.take evictBatch)
          (need - freed).toNat = batch at rounds inOrder emptyRound present ⊢
        rw [ends_ite]
        constructor
        · intro noneRemoved
          have noBatch : batch = [] := by
            rwa [Nat.cast_eq_zero, List.length_eq_zero_iff] at noneRemoved
          have noRows : db.pastes.lruOrder = [] := by
            rcases emptyRound.mp noBatch with noNeed | noCandidates
            · omega
            · exact (List.take_eq_nil_iff.mp noCandidates).resolve_left
                (by decide)
          rw [ends_pure]
          simpa [noBatch, noRows] using done
        · intro someRemoved
          have nonempty : batch ≠ [] := by
            rintro rfl
            exact someRemoved rfl
          refine inductionHypothesis ?_ ?_
          · obtain ⟨row, inBatch⟩ := List.exists_mem_of_ne_nil _ nonempty
            have shorter : (db.pastes.remove batch).rows.length <
                db.pastes.rows.length := by
              refine List.length_filter_lt_length_iff_exists.mpr
                ⟨row, present row inBatch, ?_⟩
              simpa using inBatch
            simp only
            omega
          · simp only [Pastes.lruPrefix, Pastes.lruOrder_remove_prefix inOrder,
              Pastes.remove_remove]
            have left : (need - (freed + Cover.total Row.bytes batch)).toNat =
                (need - freed).toNat - Cover.total Row.bytes batch := by
              omega
            rw [left]
            rw [rounds, Cover.total_append, List.length_append, Nat.cast_add,
              Nat.cast_add, ← add_assoc, ← add_assoc] at done
            exact done
      · intro covered
        have noNeed : (need - freed).toNat = 0 := by omega
        rw [ends_pure]
        simpa [Pastes.lruPrefix, noNeed] using done

/-- What `evict` leaves when these rows go: they are removed, and a counter of
any value is lowered by their total size, with zero as its floor. -/
def Database.freed (db : Database) (gone : List Row) : Database where
  pastes := db.pastes.remove gone
  pasteSeq := db.pasteSeq
  storedBytes :=
    if Cover.total Row.bytes gone = 0 then db.storedBytes
    else max 0 (db.storedBytes - Cover.total Row.bytes gone)

/-- `evict` removes the least-recently-used cover of the need, and answers its
size and its number of rows. -/
theorem ends_evict_any
    {need : Int}
    (inColumn : db.storedBytes < 2 ^ 63)
    (done :
      let gone := db.pastes.lruPrefix need.toNat
      returns (Cover.total Row.bytes gone, gone.length) (db.freed gone))
    (interrupted : ∀ error, error.InterruptedBy env → raises error) :
    Ends (evict env need) db returns raises := by
  unfold evict
  simp only [ends_bind, ends_get]
  refine ends_evictLoop (Nat.lt_succ_self _) ?_ interrupted
  simp only [Int.sub_zero, zero_add] at done ⊢
  unfold Database.freed at done
  rw [ends_ite]
  constructor
  · intro someFreed
    rw [if_neg (by omega)] at done
    rw [ends_bind]
    refine ends_addStoredBytes_max ?_ ?_ interrupted
    · simp only
      omega
    · rw [ends_pure]
      exact done
  · intro noneFreed
    rw [if_pos (by omega)] at done
    rw [ends_pure]
    exact done

/-- With the counter in step, the rows are discarded. -/
theorem Database.Accounted.freed_eq
    (accounted : db.Accounted)
    {gone : List Row}
    (distinct : gone.Nodup)
    (present : ∀ row ∈ gone, row ∈ db.pastes.rows) :
    db.freed gone = db.discard fun row => gone.contains row := by
  have listed := Pastes.filter_contains_perm distinct present
  have split := db.pastes.totalBytes_delete fun row => gone.contains row
  have stored := accounted.stored
  unfold Database.freed Database.discard
  rw [Cover.total_perm _ listed] at split ⊢
  congr 1
  split_ifs <;> omega

/-- `evict` discards the least-recently-used cover of the need, and answers its
size and its number of rows. -/
theorem ends_evict
    {need : Int}
    (accounted : db.Accounted)
    (done :
      let gone := db.pastes.lruPrefix need.toNat
      returns (Cover.total Row.bytes gone, gone.length)
        (db.discard fun row => gone.contains row))
    (interrupted : ∀ error, error.InterruptedBy env → raises error) :
    Ends (evict env need) db returns raises := by
  apply ends_evict_any ?_ ?_ interrupted
  · rw [accounted.stored]
    exact_mod_cast accounted.inRange
  · simp only
    rw [accounted.freed_eq (db.pastes.lruPrefix_nodup need.toNat)
      fun row covered => Pastes.mem_of_mem_lruPrefix covered]
    exact done

end Rounds

/-! ## What an eviction deletes -/

/-- Freeing this much takes these rows from the table and leaves this database:
the rows are the shortest least-recently-used part of the table that is large
enough, or the whole table, and the counter follows them. -/
structure Database.Frees
    (db : Database)
    (need : Int)
    (gone : List Row)
    (left : Database) : Prop where
  leastRecent : gone <+: db.pastes.lruOrder
  enough : need ≤ Cover.total Row.bytes gone ∨ gone = db.pastes.lruOrder
  shortest : ∀ front, front <+: db.pastes.lruOrder →
    need ≤ Cover.total Row.bytes front → gone <+: front
  kept : left.pastes.rows = db.pastes.rows.filter fun row => !gone.contains row
  later : ∀ out ∈ gone, ∀ row ∈ left.pastes.rows,
    out.accessedAt < row.accessedAt ∨
      out.accessedAt = row.accessedAt ∧ out.seq < row.seq
  sequence : left.pasteSeq = db.pasteSeq
  counter : db.storedBytes = db.pastes.totalBytes →
    left.storedBytes = db.storedBytes - Cover.total Row.bytes gone

/-- What is kept comes later in the order than what is taken from its front. -/
theorem Pastes.later_of_prefix
    {pastes : Pastes}
    {gone : List Row}
    (leastRecent : gone <+: pastes.lruOrder)
    {out row : Row}
    (taken : out ∈ gone)
    (present : row ∈ pastes.rows)
    (kept : row ∉ gone) :
    out.accessedAt < row.accessedAt ∨
      out.accessedAt = row.accessedAt ∧ out.seq < row.seq := by
  obtain ⟨rest, split⟩ := leastRecent
  have ordered := pastes.lruOrder_pairwise
  have rowOrdered : row ∈ pastes.lruOrder := Pastes.mem_lruOrder.mpr present
  have outPresent : out ∈ pastes.rows := by
    rw [← Pastes.mem_lruOrder, ← split]
    exact List.mem_append_left rest taken
  rw [← split] at ordered rowOrdered
  have inRest := (List.mem_append.mp rowOrdered).resolve_left kept
  have notLater := (List.pairwise_append.mp ordered).2.2 out taken row inRest
  have apart : out.seq ≠ row.seq := by
    intro sameSeq
    rw [Pastes.eq_of_seq_eq outPresent present sameSeq] at taken
    exact kept taken
  unfold Row.leastRecent at notLater
  omega

/-- Removing the cover of a need frees it. -/
theorem Database.frees_lruPrefix
    (db : Database)
    {need : Int}
    (positive : 0 < need) :
    db.Frees need (db.pastes.lruPrefix need.toNat)
      (db.freed (db.pastes.lruPrefix need.toNat)) := by
  have leastRecent : db.pastes.lruPrefix need.toNat <+: db.pastes.lruOrder :=
    Cover.cover_prefix _ _ _
  have listed := Pastes.filter_contains_perm
    (db.pastes.lruPrefix_nodup need.toNat)
    fun row covered => Pastes.mem_of_mem_lruPrefix covered
  have split := db.pastes.totalBytes_delete
    fun row => (db.pastes.lruPrefix need.toNat).contains row
  rw [Cover.total_perm _ listed] at split
  constructor
  case leastRecent => exact leastRecent
  case enough =>
    rcases Cover.cover_meets_or_all Row.bytes db.pastes.lruOrder need.toNat
      with meets | all
    · left
      rw [Pastes.lruPrefix]
      omega
    · exact Or.inr all
  case shortest =>
    intro front frontOf meets
    apply Cover.cover_prefix_of_meets Row.bytes frontOf
    omega
  case kept => rfl
  case later =>
    intro out taken row present
    have kept := List.mem_filter.mp present
    exact Pastes.later_of_prefix leastRecent taken kept.1 (by simpa using kept.2)
  case sequence => rfl
  case counter =>
    intro stored
    simp only [Database.freed]
    split_ifs <;> omega

/-- A database whose two oldest reads fall into one second. -/
def Database.crowded : Database where
  pastes := {
    rows := [
      ⟨3, [3], [], 0, 5, 1, 5, [], [], 0, 20, none⟩,
      ⟨2, [2], [], 0, 4, 1, 4, [], [], 0, 10, none⟩,
      ⟨1, [1], [], 0, 0, 1, 0, [], [], 0, 10, none⟩]
    seqs_nodup := by decide
    codes_nodup := by decide }
  pasteSeq := 3
  storedBytes := 9

/-- An eviction frees exactly what is needed and answers how much and how many
rows that was, or a failed statement leaves the database as it was.  Its rounds
always end. -/
theorem evict_exact
    (env : Env)
    (db : Database)
    {need : Int}
    (positive : 0 < need)
    (inColumn : db.storedBytes < 2 ^ 63) :
    (∃ gone left,
      transact (evict env need) db =
        (.ok ((Cover.total Row.bytes gone : Int), (gone.length : Int)), left) ∧
      db.Frees need gone left) ∨
    ∃ error, error.InterruptedBy env ∧
      transact (evict env need) db = (.error error, db) := by
  have ends : Ends (evict env need) db
      (fun answer next =>
        answer = ((Cover.total Row.bytes (db.pastes.lruPrefix need.toNat) : Int),
          ((db.pastes.lruPrefix need.toNat).length : Int)) ∧
        next = db.freed (db.pastes.lruPrefix need.toNat))
      fun error => error.InterruptedBy env :=
    ends_evict_any inColumn ⟨rfl, rfl⟩ fun _ interrupted => interrupted
  unfold Ends at ends
  unfold transact
  revert ends
  cases evict env need db with
  | ok outcome =>
      rintro ⟨answered, left⟩
      refine Or.inl ⟨_, _, ?_, db.frees_lruPrefix positive⟩
      rw [← answered, ← left]
  | error error =>
      intro interrupted
      exact Or.inr ⟨error, interrupted, rfl⟩

/-- A need met exactly by a zero-size row and the next one. -/
theorem evict_exact_crowded :
    ∃ gone left,
      transact (evict (Env.calm 0) 4) Database.crowded =
        (.ok ((Cover.total Row.bytes gone : Int), (gone.length : Int)), left) ∧
      Database.crowded.Frees 4 gone left :=
  (evict_exact (Env.calm 0) Database.crowded (by decide) (by decide)).resolve_right
    fun ⟨_, interrupted, _⟩ =>
      (Env.clean_calm 0).not_interrupted interrupted

end Store
end Haste
