import Haste.Store.Histories

/-!
# The byte budget

The counter of stored bytes is exact in every state of an open store, so the
clamp at zero in its adjustment is never needed: an environment in which every
adjustment below zero fails answers and leaves the same.  With the counter
exact, a store that has committed one write or sweep stays within its cap.
-/

namespace Haste
namespace Store

open Go
open Foundation
open Foundation.Transaction

/-! ## The clamp is never needed -/

/-- Whether a statement would take the counter of stored bytes below zero. -/
def belowZero (db : Database) : Statement → Bool
  | .updateStoredBytes delta => decide (db.storedBytes + delta < 0)
  | _ => false

/-- The environment in which, besides, every adjustment below zero fails. -/
def Env.strict (env : Env) : Env :=
  { env with fails := fun db statement =>
      env.fails db statement || belowZero db statement }

/-- The operation under the strict environment. -/
def Op.strict : Op → Op
  | .create env request => .create env.strict request
  | .get env code => .get env.strict code
  | .metadata env code => .metadata env.strict code
  | .flushAccess env => .flushAccess env.strict
  | .sweep env => .sweep env.strict
  | op => op

section Strict

variable
  (env : Env)
  {db : Database}

theorem execute_strict
    {statement : Statement}
    (nonnegative : belowZero db statement = false) :
    execute env.strict statement db = execute env statement db := by
  apply bind_congr rfl
  rw [ends_get]
  simp [Env.strict, nonnegative]

theorem execute_strict_of_forall
    {statement : Statement}
    (other : ∀ db, belowZero db statement = false) :
    execute env.strict statement = execute env statement :=
  funext fun db => execute_strict env (other db)

theorem storedBytes_strict : storedBytes env.strict = storedBytes env := by
  unfold storedBytes
  rw [execute_strict_of_forall env fun _ => rfl]

theorem deleteReturning_strict
    {statement : Statement}
    (other : ∀ db, belowZero db statement = false)
    (doomed : Pastes → Row → Bool) :
    deleteReturning env.strict statement doomed =
      deleteReturning env statement doomed := by
  unfold deleteReturning
  rw [execute_strict_of_forall env other]

theorem addStoredBytes_strict
    {delta : Int}
    (nonnegative : 0 ≤ db.storedBytes + delta) :
    addStoredBytes env.strict delta db = addStoredBytes env delta db := by
  refine bind_congr (execute_strict env ?_) ?_
  · simpa [belowZero] using nonnegative
  · exact ends_execute rfl fun _ _ => trivial

theorem evictLoop_strict (need : Int) (fuel : Nat) :
    evictLoop env.strict need fuel = evictLoop env need fuel := by
  induction fuel with
  | zero => rfl
  | succ fuel inductionHypothesis =>
      funext freed removed
      unfold evictLoop
      rw [inductionHypothesis, deleteReturning_strict env fun _ => rfl]

theorem allocate_strict (ids : Id.Generator) (fuel : Nat) :
    allocate ids env.strict fuel = allocate ids env fuel := by
  induction fuel with
  | zero => rfl
  | succ fuel inductionHypothesis =>
      unfold allocate nextSequence
      rw [inductionHypothesis, execute_strict_of_forall env fun _ => rfl]

theorem insertPaste_strict (row : Row) :
    insertPaste env.strict row = insertPaste env row := by
  unfold insertPaste
  rw [execute_strict_of_forall env fun _ => rfl]

theorem flushEntries_strict (entries : List AccessEntry) :
    flushEntries env.strict entries = flushEntries env entries := by
  induction entries with
  | nil => rfl
  | cons entry rest inductionHypothesis =>
      unfold flushEntries
      rw [inductionHypothesis, execute_strict_of_forall env fun _ => rfl]

theorem flushTx_strict (pending : Access) :
    flushTx env.strict pending = flushTx env pending := by
  unfold flushTx
  rw [flushEntries_strict, execute_strict_of_forall env fun _ => rfl,
    execute_strict_of_forall env fun _ => rfl,
    execute_strict_of_forall env fun _ => rfl]

section Accounted

variable (accounted : db.Accounted)
include accounted

theorem evict_strict (need : Int) :
    evict env.strict need db = evict env need db := by
  apply bind_congr rfl
  rw [ends_get]
  refine bind_congr (by rw [evictLoop_strict]) ?_
  refine ends_evictLoop (Nat.lt_succ_self _) ?_ fun _ _ => trivial
  have listed := Pastes.filter_contains_perm
    (db.pastes.lruPrefix_nodup (need - 0).toNat)
    fun row covered => Pastes.mem_of_mem_lruPrefix covered
  have split := db.pastes.totalBytes_delete fun row =>
    (db.pastes.lruPrefix (need - 0).toNat).contains row
  rw [Cover.total_perm _ listed] at split
  have stored := accounted.stored
  simp only
  split
  · refine bind_congr (addStoredBytes_strict env ?_) ?_
    · simp only
      omega
    · exact ends_of_forall fun _ _ => rfl
  · rfl

theorem deleteWhere_strict (rule : Rule) (condition : Row → Bool) :
    deleteWhere env.strict rule condition db =
      deleteWhere env rule condition db := by
  refine bind_congr (by rw [deleteReturning_strict env fun _ => rfl]) ?_
  refine ends_deleteReturning ?_ fun _ _ => trivial
  have split := db.pastes.totalBytes_delete condition
  have stored := accounted.stored
  simp only
  split
  · rfl
  · refine bind_congr (addStoredBytes_strict env ?_) ?_
    · simp only
      omega
    · exact ends_of_forall fun _ _ => rfl

/-- Evicting what is stored too much. -/
theorem evictOver_strict {α : Type}
    (need : Int → Int)
    (after : Int × Int → Tx α)
    (otherwise : Tx α) :
    (storedBytes env.strict >>= fun stored =>
        if 0 < need stored then evict env.strict (need stored) >>= after
        else otherwise) db =
      (storedBytes env >>= fun stored =>
        if 0 < need stored then evict env (need stored) >>= after
        else otherwise) db := by
  refine bind_congr (by rw [storedBytes_strict]) ?_
  refine ends_storedBytes ?_ fun _ _ => trivial
  split
  · exact bind_congr (evict_strict env accounted _) (ends_of_forall fun _ _ => rfl)
  · rfl

theorem makeRoom_strict (options : Options) (size : Nat) :
    makeRoom options env.strict size db = makeRoom options env size db := by
  unfold makeRoom
  split
  · exact evictOver_strict env accounted
      (fun stored => stored + size - options.maxBytes) _ _
  · rfl

theorem createTx_strict
    (options : Options)
    (draft : Paste)
    (body : Bytes)
    (codec : Int) :
    createTx options env.strict draft body codec db =
      createTx options env draft body codec db := by
  have ignored : ∀ error : Error, error.InterruptedBy env → True :=
    fun _ _ => trivial
  have room := accounted.withRoom options.maxBytes body.length
  refine bind_congr (by rw [execute_strict_of_forall env fun _ => rfl]) ?_
  refine ends_execute ?_ ignored
  apply bind_congr (makeRoom_strict env accounted options _)
  refine ends_makeRoom accounted ?_ ignored
  refine bind_congr (by rw [allocate_strict]) ?_
  refine ends_allocate (Nat.le_add_left _ _) (by decide) ?_ ignored
    (fun _ _ _ => trivial) fun _ => trivial
  intro seq code _
  refine bind_congr (by rw [insertPaste_strict]) ?_
  refine ends_insertPaste ?_ ignored (fun _ _ _ => trivial) fun _ _ _ => trivial
  intro pastes _
  refine bind_congr (addStoredBytes_strict env ?_) ?_
  · have stored := room.stored
    simp only
    omega
  · apply ends_of_forall
    intro _ _
    rw [execute_strict_of_forall env fun _ => rfl]

theorem sweepRule_strict (rule : Rule) (ttl : Int) (column : Row → Int) :
    sweepRule env.strict rule ttl column db =
      sweepRule env rule ttl column db := by
  change (if 0 < cutoff env.now ttl then deleteWhere env.strict rule _
    else pure 0) db = (if 0 < cutoff env.now ttl then deleteWhere env rule _
    else pure 0) db
  split
  · exact deleteWhere_strict env accounted rule _
  · rfl

theorem sweepRoom_strict (options : Options) :
    sweepRoom options env.strict db = sweepRoom options env db := by
  unfold sweepRoom
  split
  · exact evictOver_strict env accounted (fun stored => stored - options.maxBytes) _ _
  · rfl

theorem sweepTx_strict (options : Options) (flushed : Int) :
    sweepTx options env.strict flushed db = sweepTx options env flushed db := by
  have ignored : ∀ error : Error, error.InterruptedBy env → True :=
    fun _ _ => trivial
  refine bind_congr (by rw [execute_strict_of_forall env fun _ => rfl]) ?_
  refine ends_execute ?_ ignored
  apply bind_congr (deleteWhere_strict env accounted _ _)
  refine ends_deleteWhere accounted ?_ ignored
  apply bind_congr (sweepRoom_strict env (accounted.discard _) options)
  refine ends_sweepRoom (accounted.discard _) ?_ ignored
  refine bind_congr (sweepRule_strict env
    (accounted.withinCap options env.now) _ _ _) ?_
  refine ends_sweepRule (accounted.withinCap options env.now) ?_ ignored
  refine bind_congr (sweepRule_strict env
    (accounted.withoutUnread options env.now) _ _ _) ?_
  apply ends_of_forall
  intro _ _
  rw [storedBytes_strict, execute_strict_of_forall env fun _ => rfl]

end Accounted

end Strict

/-- A step answers and leaves the same under the strict environment. -/
theorem System.perform_strict
    {system : System}
    (sound : system.Sound)
    (op : Op) :
    system.perform op.strict = system.perform op := by
  cases system with
  | closed file last => cases op <;> rfl
  | opened store =>
      have accounted : store.db.Accounted := sound
      cases op with
      | openFile | shut | takeAccess => rfl
      | create env request =>
          have same : Store.create store.options env.strict request store.db =
              Store.create store.options env request store.db := by
            unfold Store.create transact
            cases checkRequest store.options request with
            | error error => rfl
            | ok title =>
                simp only [createTx_strict env accounted]
                rfl
          simp only [Op.strict, System.perform, OpenStore.create, same]
      | get env code =>
          have same : Store.get store.options env.strict code store.db =
              Store.get store.options env code store.db := by
            simp [Store.get, readRow, Env.strict, belowZero]
          simp only [Op.strict, System.perform, OpenStore.get, same]
          rfl
      | metadata env code =>
          have same : Store.metadata store.options env.strict code store.db =
              Store.metadata store.options env code store.db := by
            simp [Store.metadata, readRow, Env.strict, belowZero]
          simp only [Op.strict, System.perform, OpenStore.metadata, same]
      | flushAccess env =>
          simp only [Op.strict, System.perform, OpenStore.flushAccess,
            flushTx_strict]
      | sweep env =>
          have sameEnd : store.afterSweepTx env.strict =
              store.afterSweepTx env := by
            funext ended
            unfold OpenStore.afterSweepTx afterSweep
            simp [Env.strict, belowZero]
          have sameTx : ∀ flushed,
              transact (sweepTx store.options env.strict flushed) store.db =
                transact (sweepTx store.options env flushed) store.db := by
            intro flushed
            unfold transact
            rw [sweepTx_strict env accounted]
          simp only [Op.strict, System.perform, OpenStore.sweep, sameEnd, sameTx]

/-! ## Exact accounting -/

/-- The size of the row a `Create` has stored is the length of its body, in
every later state. -/
theorem bytes_eq_length_after_create
    {system : System}
    (sound : system.Sound)
    {env : Env}
    {request : Request}
    {paste : Paste}
    (answered : system.answer (.create env request) = .created paste)
    (after : List Op)
    {row : Row}
    (present : row ∈
      (system.run (.create env request :: after)).content.pastes.rows)
    (sameSeq : row.seq = paste.seq) :
    row.bytes = row.body.length := by
  obtain ⟨nextSound, _⟩ := System.step_spec sound (.create env request)
  refine System.invariant_run_of_change
    (fun db => ∀ row ∈ db.pastes.rows, row.seq = paste.seq →
      row.bytes = row.body.length) ?_ nextSound ?_ after row present sameSeq
  · intro settings db next change measured row present sameSeq
    rcases change.row_cases present with
      ⟨old, oldPresent, same, _⟩ | ⟨options, env, request, paste, _, _, rfl⟩
    · rw [same] at sameSeq ⊢
      exact measured old oldPresent sameSeq
    · rfl
  · cases system with
    | closed file last => cases answered
    | opened store =>
        have ended := System.outcome_of_answer sound answered
        generalize (System.opened store).step (.create env request) = next
          at ended ⊢
        cases ended with
        | created _ _ _ db created =>
            intro row present sameSeq
            rw [Pastes.eq_of_seq_eq present created.stores.mem_rows sameSeq]
            rfl

/-- In every run from any database file, whatever fails: the counter of an open
store is the total size of its rows, the row of a successful `Create` is
counted with the length of its body, and no adjustment goes below zero. -/
theorem accounting_exact
    (file : File)
    (last : Option Options)
    (ops : List Op) :
    (∀ store, (System.closed file last).run ops = .opened store →
      store.db.storedBytes = store.db.pastes.totalBytes) ∧
    (∀ env request paste after,
      ((System.closed file last).run ops).answer (.create env request) =
        .created paste →
      ∀ row ∈ (((System.closed file last).run ops).run
          (.create env request :: after)).content.pastes.rows,
        row.seq = paste.seq → row.bytes = row.body.length) ∧
    ∀ op, ((System.closed file last).run ops).perform op.strict =
      ((System.closed file last).run ops).perform op := by
  have sound := System.sound_run
    (System.sound_closed file last) ops
  refine ⟨?_, ?_, fun op => System.perform_strict sound op⟩
  · intro store reached
    rw [reached] at sound
    exact sound.stored
  · intro env request paste after answered row present sameSeq
    exact bytes_eq_length_after_create sound answered after present sameSeq

/-! ## The cap -/

/-- The rows of a database fit within a cap. -/
def Database.Within (db : Database) (maxBytes : Int) : Prop :=
  (db.pastes.totalBytes : Int) ≤ maxBytes

theorem Database.Within.discard
    {db : Database}
    {maxBytes : Int}
    (within : db.Within maxBytes)
    (doomed : Row → Bool) :
    (db.discard doomed).Within maxBytes := by
  have split := db.pastes.totalBytes_delete doomed
  unfold Database.Within at within ⊢
  simp only [Database.discard]
  omega

/-- A successful `Create` ends within the cap, whatever was stored before. -/
theorem Created.within
    {options : Options}
    {env : Env}
    {request : Request}
    {db next : Database}
    {paste : Paste}
    (created : Created options env request db paste next)
    (accounted : db.Accounted)
    (capped : 0 < options.maxBytes) :
    next.Within options.maxBytes := by
  have room := accounted.withRoom_fits capped (created.fits capped)
  unfold Database.Within
  rw [created.stores.totalBytes, Nat.cast_add]
  exact room

/-- A committed sweep ends within the cap. -/
theorem Database.Accounted.swept_within
    {db : Database}
    (accounted : db.Accounted)
    {options : Options}
    (capped : 0 < options.maxBytes)
    (now : Int) :
    (db.swept options now).Within options.maxBytes := by
  have empty : ((0 : Nat) : Int) ≤ options.maxBytes := capped.le
  have cap : (db.withinCap options now).Within options.maxBytes := by
    have room := (accounted.discard (Row.expired now)).withRoom_fits capped empty
    rwa [Nat.cast_zero, Int.add_zero] at room
  exact (cap.discard _).discard _

namespace System

/-- A step ends within the cap if the store was within it or the step commits a
write or a sweep. -/
theorem step_within
    {store next : OpenStore}
    (accounted : store.db.Accounted)
    (capped : 0 < store.options.maxBytes)
    {op : Op}
    (stepped : (System.opened store).step op = .opened next)
    (start : store.db.Within store.options.maxBytes ∨
      ((System.opened store).answer op).commits = true) :
    next.db.Within store.options.maxBytes := by
  have ended := outcome accounted op
  rw [stepped] at ended
  generalize (System.opened store).answer op = answer at ended start
  cases ended with
  | created env request paste db created =>
      exact created.within accounted capped
  | swept env flushed sweeping =>
      exact accounted.swept_within capped env.now
  | flushed env pending flushing | flushedForSweep env pending flushing =>
      have within := start.resolve_right Bool.false_ne_true
      unfold Database.Within at within ⊢
      simp only [Database.touch, Pastes.totalBytes_touch]
      exact within
  | _ => exact start.resolve_right Bool.false_ne_true

theorem within_run
    {store : OpenStore}
    (accounted : store.db.Accounted)
    (capped : 0 < store.options.maxBytes)
    (start : store.db.Within store.options.maxBytes)
    {ops : List Op}
    (running : ∀ op ∈ ops, op ≠ .shut) :
    ∃ next, (System.opened store).run ops = .opened next ∧
      next.db.Within store.options.maxBytes := by
  induction ops generalizing store with
  | nil => exact ⟨store, rfl, start⟩
  | cons op rest inductionHypothesis =>
      obtain ⟨first, restRunning⟩ := List.forall_mem_cons.mp running
      obtain ⟨next, stepped, sameOptions, nextAccounted⟩ :=
        opened_step accounted first
      have within := step_within accounted capped stepped (Or.inl start)
      rw [run_cons, stepped]
      rw [← sameOptions] at capped within ⊢
      exact inductionHypothesis nextAccounted capped within restRunning

end System

/-- An error that speaks of room: the cap, the counter of stored bytes, or an
eviction that does not end. -/
def Error.LacksRoom : Error → Prop
  | .noRoom _ _ => True
  | .statement (.updateStoredBytes _) .integerOverflow => True
  | .diverged => True
  | _ => False

/-- A `Create` whose compressed body fits within the cap is not refused for
lack of room. -/
theorem CreateRefused.roomy
    {options : Options}
    {env : Env}
    {request : Request}
    {db : Database}
    {error : Error}
    (refused : CreateRefused options env request db error)
    (capped : 0 < options.maxBytes)
    (fits : ((options.codec.compress request.content).1.length : Int) ≤
      options.maxBytes) :
    ¬error.LacksRoom := by
  cases refused with
  | request error refused =>
      have inRequest := checkRequest_inRequest refused
      cases error <;> first | exact id | exact absurd inRequest id
  | admission refusal refused => cases refusal <;> exact id
  | noRoom capped large => exact absurd large (not_lt.mpr fits)
  | failed error failed =>
      cases failed with
      | interrupted error interrupted =>
          obtain ⟨_, statement, _, rfl⟩ := interrupted
          cases statement <;> exact id
      | overflow unlimited beyond => exact absurd capped (not_lt.mpr unlimited)
      | _ => exact id

/-- In a store opened with a cap over any file: once one write or sweep is
committed the rows fit within the cap in every later state, and a `Create`
whose compressed body fits within the cap is never refused for lack of room. -/
theorem cap_holds
    {file : File}
    {last : Option Options}
    {options : Options}
    {stopped : Option Nat}
    (capped : 0 < options.maxBytes)
    (opened : (System.closed file last).answer (.openFile options stopped) =
      .opened)
    {before : List Op}
    (running : ∀ op ∈ before, op ≠ .shut) :
    let start := (System.closed file last).step (.openFile options stopped)
    (∀ op after, (∀ later ∈ op :: after, later ≠ .shut) →
      ((start.run before).answer op).commits = true →
      ∃ store, start.run (before ++ op :: after) = .opened store ∧
        (store.db.pastes.totalBytes : Int) ≤ options.maxBytes) ∧
    ∀ env request error,
      ((options.codec.compress request.content).1.length : Int) ≤
        options.maxBytes →
      (start.run before).answer (.create env request) = .failed error →
      ¬error.LacksRoom := by
  obtain ⟨first, started, rfl, accounted, _⟩ := System.opened_of_answer opened
  obtain ⟨store, ran, sameOptions, storeAccounted⟩ :=
    System.opened_run accounted running
  simp only [started]
  rw [← sameOptions] at capped ⊢
  constructor
  · intro op after laterRunning commits
    obtain ⟨opRunning, afterRunning⟩ := List.forall_mem_cons.mp laterRunning
    rw [System.run_append, System.run_cons]
    rw [ran] at commits ⊢
    obtain ⟨next, stepped, nextOptions, nextAccounted⟩ :=
      System.opened_step storeAccounted opRunning
    have within :=
      System.step_within storeAccounted capped stepped (Or.inr commits)
    rw [stepped]
    rw [← nextOptions] at capped within ⊢
    exact System.within_run nextAccounted capped within afterRunning
  · intro env request error fits answered
    rw [ran] at answered
    have ended := System.outcome_of_answer storeAccounted answered
    generalize (System.opened store).step (.create env request) = next at ended
    cases ended with
    | refused _ _ _ refused => exact refused.roomy capped fits

/-- Three texts of ten bytes each under a cap of twenty-five. -/
theorem cap_holds_small :
    ∃ store,
      ((System.closed .fresh none).step
        (.openFile { Options.small with
          maxBytes := 25
          maxBytes_lt := by decide } none)).run
        ([.create (.calm 0) ⟨ascii "a", [], [], 0⟩,
          .create (.calm 1) ⟨ascii "b", [], [], 0⟩] ++
          [.create (.calm 2) ⟨ascii "c", [], [], 0⟩]) = .opened store ∧
      (store.db.pastes.totalBytes : Int) ≤ 25 :=
  (cap_holds (by decide) rfl (by simp)).1 _ [] (by simp) (by decide +kernel)

end Store
end Haste
