import Haste.Store.System

/-!
# What a step does

`Outcome` lists the ways in which a step of an open store ends, with its answer,
and `Change` what a step does to the content of the file.  Every later result
about steps is a case distinction on one of them.
-/

namespace Haste
namespace Store

open Go
open Foundation
open Foundation.Transaction

/-! ## How a step of an open store ends -/

/-- The ways a step of an open store ends, with its answer and the state after
it. -/
inductive Outcome (store : OpenStore) : Op → Answer → System → Prop
  | nothing (op : Op) : Outcome store op .silent (.opened store)
  | shut :
      Outcome store .shut .silent
        (.closed store.db.file (some store.options))
  | refused
      (env : Env)
      (request : Request)
      (error : Error)
      (refused : CreateRefused store.options env request store.db error) :
      Outcome store (.create env request) (.failed error) (.opened store)
  | created
      (env : Env)
      (request : Request)
      (paste : Paste)
      (db : Database)
      (created : Created store.options env request store.db paste db) :
      Outcome store (.create env request) (.created paste)
        (.opened { store with db })
  | unread
      (env : Env)
      (code : Bytes)
      (error : Error)
      (read : get store.options env code store.db = .error error) :
      Outcome store (.get env code) (.failed error) (.opened store)
  | got
      (env : Env)
      (code : Bytes)
      (paste : Paste)
      (content : Bytes)
      (read : get store.options env code store.db = .ok (paste, content)) :
      Outcome store (.get env code) (.got paste content)
        (.opened (store.recordAccess paste.seq (unix env.now)))
  | undescribed
      (env : Env)
      (code : Bytes)
      (error : Error)
      (read : metadata store.options env code store.db = .error error) :
      Outcome store (.metadata env code) (.failed error) (.opened store)
  | described
      (env : Env)
      (code : Bytes)
      (paste : Paste)
      (read : metadata store.options env code store.db = .ok paste) :
      Outcome store (.metadata env code) (.described paste) (.opened store)
  | taken
      (sweeping : Bool)
      (idle : store.sweeper = .idle) :
      Outcome store (.takeAccess sweeping) .silent
        (.opened { store with
          access := ∅
          sweeper := .flushing store.access sweeping })
  | unflushed
      (env : Env)
      (pending : Access)
      (sweeping : Bool)
      (flushing : store.sweeper = .flushing pending sweeping)
      (error : Error)
      (interrupted : error.InterruptedBy env) :
      Outcome store (.flushAccess env) (.failed error)
        (.opened { store with sweeper := .idle })
  | flushed
      (env : Env)
      (pending : Access)
      (flushing : store.sweeper = .flushing pending false) :
      Outcome store (.flushAccess env) (.flushed pending.entries.length)
        (.opened { store with
          db := store.db.touch pending.entries
          sweeper := .idle })
  | flushedForSweep
      (env : Env)
      (pending : Access)
      (flushing : store.sweeper = .flushing pending true) :
      Outcome store (.flushAccess env) .silent
        (.opened { store with
          db := store.db.touch pending.entries
          sweeper := .sweeping pending.entries.length })
  | unswept
      (env : Env)
      (flushed : Int)
      (sweeping : store.sweeper = .sweeping flushed)
      (error : Error)
      (interrupted : error.InterruptedBy env) :
      Outcome store (.sweep env) (.failed error)
        (.opened { store with sweeper := .idle })
  | swept
      (env : Env)
      (flushed : Int)
      (sweeping : store.sweeper = .sweeping flushed) :
      Outcome store (.sweep env)
        (.swept (store.db.sweepResult store.options env.now flushed)
          (afterSweep env (store.db.sweepResult store.options env.now flushed)
            (store.db.swept store.options env.now)))
        (.opened { store with
          db := store.db.swept store.options env.now
          sweeper := .idle })

namespace OpenStore

variable {store : OpenStore}

theorem create_outcome
    (env : Env)
    (request : Request)
    (accounted : store.db.Accounted) :
    Outcome store (.create env request) (store.create env request).1
      (.opened (store.create env request).2) := by
  unfold create
  rcases Store.create_cases store.options env request accounted with
    ⟨error, ended, refused⟩ | ⟨paste, db, ended, created⟩
  · rw [ended]
    exact .refused env request error refused
  · rw [ended]
    exact .created env request paste db created

theorem get_outcome (env : Env) (code : Bytes) :
    Outcome store (.get env code) (store.get env code).1
      (.opened (store.get env code).2) := by
  unfold get
  cases read : Store.get store.options env code store.db with
  | error error => exact .unread env code error read
  | ok value => exact .got env code value.1 value.2 read

theorem metadata_outcome (env : Env) (code : Bytes) :
    Outcome store (.metadata env code) (store.metadata env code).1
      (.opened (store.metadata env code).2) := by
  unfold metadata
  cases read : Store.metadata store.options env code store.db with
  | error error => exact .undescribed env code error read
  | ok paste => exact .described env code paste read

theorem takeAccess_outcome (sweeping : Bool) :
    Outcome store (.takeAccess sweeping) (store.takeAccess sweeping).1
      (.opened (store.takeAccess sweeping).2) := by
  unfold takeAccess
  cases under : store.sweeper with
  | idle => exact .taken sweeping under
  | _ => exact .nothing _

/-- The rest of a flush fails and forgets what was taken, or writes back all of
it. -/
theorem flushAccess_cases
    {pending : Access}
    {sweeping : Bool}
    (flushing : store.sweeper = .flushing pending sweeping)
    (env : Env) :
    (∃ error, error.InterruptedBy env ∧
      store.flushAccess env =
        (.failed error, { store with sweeper := .idle })) ∨
    store.flushAccess env =
      store.afterFlush sweeping
        (.ok pending.entries.length, store.db.touch pending.entries) := by
  simp only [flushAccess, flushing]
  refine transact_of_ends (fun answer db =>
    (∃ error, error.InterruptedBy env ∧
      store.afterFlush sweeping (answer, db) =
        (.failed error, { store with sweeper := .idle })) ∨
    store.afterFlush sweeping (answer, db) =
      store.afterFlush sweeping
        (.ok pending.entries.length, store.db.touch pending.entries)) ?_
  exact ends_flushTx (Or.inr rfl)
    fun error interrupted => Or.inl ⟨error, interrupted, rfl⟩

theorem flushAccess_outcome (env : Env) :
    Outcome store (.flushAccess env) (store.flushAccess env).1
      (.opened (store.flushAccess env).2) := by
  cases under : store.sweeper with
  | flushing pending sweeping =>
      rcases flushAccess_cases under env with ⟨error, interrupted, ended⟩ | ended
      · rw [ended]
        exact .unflushed env pending sweeping under error interrupted
      · rw [ended]
        cases sweeping with
        | false => exact .flushed env pending under
        | true => exact .flushedForSweep env pending under
  | _ =>
      simp only [flushAccess, under]
      exact .nothing _

/-- The rest of a sweep fails and deletes nothing, or leaves the swept
database. -/
theorem sweep_outcome
    (env : Env)
    (accounted : store.db.Accounted) :
    Outcome store (.sweep env) (store.sweep env).1
      (.opened (store.sweep env).2) := by
  unfold sweep
  cases under : store.sweeper with
  | sweeping flushed =>
      refine transact_of_ends (fun answer db =>
        Outcome store (.sweep env)
          (store.afterSweepTx env (answer, db)).1
          (.opened (store.afterSweepTx env (answer, db)).2)) ?_
      exact ends_sweepTx accounted (.swept env flushed under)
        fun error interrupted => .unswept env flushed under error interrupted
  | _ => exact .nothing _

end OpenStore

/-- Every step of an open store ends in one of the listed ways. -/
theorem System.outcome
    {store : OpenStore}
    (accounted : store.db.Accounted)
    (op : Op) :
    Outcome store op ((System.opened store).answer op)
      ((System.opened store).step op) := by
  cases op with
  | openFile options stopped => exact .nothing _
  | shut => exact .shut
  | create env request => exact store.create_outcome env request accounted
  | get env code => exact store.get_outcome env code
  | metadata env code => exact store.metadata_outcome env code
  | takeAccess sweeping => exact store.takeAccess_outcome sweeping
  | flushAccess env => exact store.flushAccess_outcome env
  | sweep env => exact store.sweep_outcome env accounted

theorem System.outcome_of_answer
    {store : OpenStore}
    (accounted : store.db.Accounted)
    {op : Op}
    {answer : Answer}
    (answered : (System.opened store).answer op = answer) :
    Outcome store op answer ((System.opened store).step op) := by
  rw [← answered]
  exact outcome accounted op

/-! ## What a step does to the database -/

/-- The ways a step changes the content of the file, under the options of the
store. -/
inductive Change (settings : Option Options) (db next : Database) : Prop
  | unchanged (same : next = db)
  | reopened (same : db.SameContent next)
  | stored
      (options : Options)
      (current : settings = some options)
      (env : Env)
      (request : Request)
      (paste : Paste)
      (created : Created options env request db paste next)
  | touched
      (entries : List AccessEntry)
      (same : next = db.touch entries)
  | swept
      (options : Options)
      (current : settings = some options)
      (now : Int)
      (same : next = db.swept options now)

/-! ## What every change keeps -/

/-- A row of `db` that is still the same, up to a later access time. -/
def Database.Keeps (db : Database) (row : Row) : Prop :=
  ∃ old ∈ db.pastes.rows, row = old.withAccess row.accessedAt ∧
    old.accessedAt ≤ row.accessedAt

theorem Database.keeps_of_mem
    {db : Database}
    {row : Row}
    (present : row ∈ db.pastes.rows) :
    db.Keeps row :=
  ⟨row, present, rfl, le_rfl⟩

theorem Database.mem_of_mem_discard
    {db : Database}
    {doomed : Row → Bool}
    {row : Row}
    (present : row ∈ (db.discard doomed).pastes.rows) :
    row ∈ db.pastes.rows :=
  List.mem_of_mem_filter present

theorem Database.mem_of_mem_swept
    {db : Database}
    {options : Options}
    {now : Int}
    {row : Row}
    (present : row ∈ (db.swept options now).pastes.rows) :
    row ∈ db.pastes.rows :=
  mem_of_mem_discard (mem_of_mem_discard
    (mem_of_mem_discard (mem_of_mem_discard present)))

/-- A row after a change was there before it, or is the one row a `Create` has
stored. -/
theorem Change.row_cases
    {settings : Option Options}
    {db next : Database}
    (change : Change settings db next)
    {row : Row}
    (present : row ∈ next.pastes.rows) :
    db.Keeps row ∨
      ∃ options env request paste,
        settings = some options ∧
        Created options env request db paste next ∧
          row = paste.row (options.codec.compress request.content).1
            (options.codec.compress request.content).2 := by
  cases change with
  | unchanged same =>
      subst same
      exact Or.inl (Database.keeps_of_mem present)
  | reopened same =>
      rw [same.1] at present
      exact Or.inl (Database.keeps_of_mem present)
  | stored options current env request paste created =>
      rw [created.stores.rows, List.mem_append, List.mem_singleton] at present
      rcases present with old | new
      · exact Or.inl (Database.keeps_of_mem (Database.mem_of_mem_discard old))
      · exact Or.inr ⟨options, env, request, paste, current, created, new⟩
  | touched entries same =>
      subst same
      obtain ⟨old, oldPresent, rfl⟩ := List.mem_map.mp present
      exact Or.inl ⟨old, oldPresent, rfl, old.le_recency entries⟩
  | swept options current now same =>
      subst same
      exact Or.inl (Database.keeps_of_mem (Database.mem_of_mem_swept present))

/-- The sequence counter never decreases. -/
theorem Change.pasteSeq_le
    {settings : Option Options}
    {db next : Database}
    (change : Change settings db next) :
    db.pasteSeq ≤ next.pasteSeq := by
  cases change with
  | unchanged same => exact (congrArg Database.pasteSeq same).ge
  | reopened same => exact same.2.ge
  | stored options current env request paste created =>
      rw [created.stores.pasteSeq]
      exact created.allocated.above.le
  | touched entries same => exact (congrArg Database.pasteSeq same).ge
  | swept options current now same => exact (congrArg Database.pasteSeq same).ge

/-- Every row has a sequence number the counter has passed. -/
def Database.Numbered (db : Database) : Prop :=
  ∀ row ∈ db.pastes.rows, row.seq ≤ db.pasteSeq

theorem Change.numbered
    {settings : Option Options}
    {db next : Database}
    (change : Change settings db next)
    (numbered : db.Numbered) :
    next.Numbered := by
  intro row present
  rcases change.row_cases present with
    ⟨old, oldPresent, same, _⟩ | ⟨_, _, _, _, _, created, rfl⟩
  · rw [same]
    exact (numbered old oldPresent).trans change.pasteSeq_le
  · exact created.stores.pasteSeq.ge

/-! ## Soundness of every state -/

/-- The database after a successful `Create` is exact again. -/
theorem Created.accounted
    {options : Options}
    {env : Env}
    {request : Request}
    {db next : Database}
    {paste : Paste}
    (created : Created options env request db paste next)
    (accounted : db.Accounted) :
    next.Accounted := by
  have room := accounted.withRoom options.maxBytes
    (options.codec.compress request.content).1.length
  have stored := created.stores.storedBytes
  refine ⟨?_, created.inRange⟩
  rw [stored, room.stored, created.stores.totalBytes, Nat.cast_add]

namespace System

/-- A step of an open store keeps the accounting exact and changes the file in
one of the listed ways. -/
theorem step_opened_spec
    {store : OpenStore}
    (accounted : store.db.Accounted)
    (op : Op) :
    ((System.opened store).step op).Sound ∧
      Change (some store.options) store.db
        ((System.opened store).step op).content := by
  have ended := outcome accounted op
  generalize (System.opened store).answer op = answer at ended
  generalize (System.opened store).step op = next at ended ⊢
  cases ended with
  | shut => exact ⟨trivial, .unchanged rfl⟩
  | created env request paste db created =>
      exact ⟨created.accounted accounted, .stored _ rfl _ _ _ created⟩
  | flushed env pending flushing | flushedForSweep env pending flushing =>
      exact ⟨accounted.touch _, .touched _ rfl⟩
  | swept env flushed sweeping =>
      exact ⟨accounted.swept _ _, .swept _ rfl _ rfl⟩
  | _ => exact ⟨accounted, .unchanged rfl⟩

/-- A step keeps the accounting exact and changes the file in one of the listed
ways. -/
theorem step_spec
    {system : System}
    (sound : system.Sound)
    (op : Op) :
    (system.step op).Sound ∧
      Change system.settings system.content (system.step op).content := by
  cases system with
  | opened store => exact step_opened_spec sound op
  | closed file last =>
      cases op with
      | openFile options stopped =>
          obtain ⟨same, accounted⟩ := openFile_spec stopped file
          simp only [step, perform, openStore]
          cases ended : openFile stopped file with
          | mk done next =>
              rw [ended] at same accounted
              cases done with
              | false => exact ⟨trivial, .reopened same⟩
              | true => exact ⟨accounted rfl, .reopened same⟩
      | _ => exact ⟨trivial, .unchanged rfl⟩

/-- On a closed file no step changes a row or the sequence counter. -/
theorem step_closed_sameContent
    (file : File)
    (last : Option Options)
    (op : Op) :
    file.content.SameContent ((System.closed file last).step op).content := by
  cases op with
  | openFile options stopped =>
      have same := (openFile_spec stopped file).1
      simp only [step, perform, openStore]
      cases ended : openFile stopped file with
      | mk done next =>
          rw [ended] at same
          cases done <;> exact same
  | _ => exact ⟨rfl, rfl⟩

/-- A closed file answers no `Create`. -/
theorem answer_closed_ne_created
    (file : File)
    (last : Option Options)
    (op : Op)
    (paste : Paste) :
    (System.closed file last).answer op ≠ .created paste := by
  cases op with
  | openFile options stopped =>
      simp only [answer, perform, openStore]
      cases openFile stopped file with
      | mk done next => cases done <;> simp
  | _ => simp [answer, perform]

/-! ## What an answer tells -/

/-- What is known of a paste once `Create` has answered it. -/
theorem created_of_answer
    {system : System}
    (sound : system.Sound)
    {env : Env}
    {request : Request}
    {paste : Paste}
    (answered : system.answer (.create env request) = .created paste) :
    ∃ store db, system = .opened store ∧
      system.step (.create env request) = .opened { store with db } ∧
      Created store.options env request store.db paste db := by
  cases system with
  | closed file last => cases answered
  | opened store =>
      have ended := outcome_of_answer sound answered
      generalize (System.opened store).step (.create env request) = next
        at ended ⊢
      cases ended with
      | created _ _ _ db created => exact ⟨store, db, rfl, rfl, created⟩

/-- What `Get` answers on an open store. -/
theorem answer_get
    (store : OpenStore)
    (env : Env)
    (code : Bytes) :
    (System.opened store).answer (.get env code) =
      match Store.get store.options env code store.db with
      | .ok (paste, content) => .got paste content
      | .error error => .failed error := by
  simp only [answer, perform, onStore, OpenStore.get]
  cases Store.get store.options env code store.db <;> rfl

/-- What `Meta` answers on an open store. -/
theorem answer_metadata
    (store : OpenStore)
    (env : Env)
    (code : Bytes) :
    (System.opened store).answer (.metadata env code) =
      match Store.metadata store.options env code store.db with
      | .ok paste => .described paste
      | .error error => .failed error := by
  simp only [answer, perform, onStore, OpenStore.metadata]
  cases Store.metadata store.options env code store.db <;> rfl

theorem got_of_answer
    {system : System}
    {env : Env}
    {code content : Bytes}
    {paste : Paste}
    (answered : system.answer (.get env code) = .got paste content) :
    ∃ store, system = .opened store ∧
      Store.get store.options env code store.db = .ok (paste, content) := by
  cases system with
  | closed file last => cases answered
  | opened store =>
      rw [answer_get] at answered
      refine ⟨store, rfl, ?_⟩
      split at answered
      · cases answered
        assumption
      · cases answered

theorem described_of_answer
    {system : System}
    {env : Env}
    {code : Bytes}
    {paste : Paste}
    (answered : system.answer (.metadata env code) = .described paste) :
    ∃ store, system = .opened store ∧
      Store.metadata store.options env code store.db = .ok paste := by
  cases system with
  | closed file last => cases answered
  | opened store =>
      rw [answer_metadata] at answered
      refine ⟨store, rfl, ?_⟩
      split at answered
      · cases answered
        assumption
      · cases answered

/-- A read of an open store answers an error exactly when its query does. -/
theorem answer_get_eq_failed_iff
    {store : OpenStore}
    {env : Env}
    {code : Bytes}
    {error : Error} :
    (System.opened store).answer (.get env code) = .failed error ↔
      Store.get store.options env code store.db = .error error := by
  rw [answer_get]
  cases Store.get store.options env code store.db <;> simp

theorem answer_metadata_eq_failed_iff
    {store : OpenStore}
    {env : Env}
    {code : Bytes}
    {error : Error} :
    (System.opened store).answer (.metadata env code) = .failed error ↔
      Store.metadata store.options env code store.db = .error error := by
  rw [answer_metadata]
  cases Store.metadata store.options env code store.db <;> simp

/-- `Create` answers nothing but a paste or an error. -/
theorem exists_created_of_commits
    {system : System}
    {env : Env}
    {request : Request}
    (commits : (system.answer (.create env request)).commits = true) :
    ∃ paste, system.answer (.create env request) = .created paste := by
  cases system with
  | closed file last => cases commits
  | opened store =>
      simp only [answer, perform, onStore, OpenStore.create] at commits ⊢
      rcases ended : Store.create store.options env request store.db with
        ⟨error | paste, db⟩
      · rw [ended] at commits
        cases commits
      · exact ⟨paste, rfl⟩

/-- An idle sweeper takes the queue. -/
theorem step_takeAccess_of_idle
    {store : OpenStore}
    (idle : store.sweeper = .idle)
    (sweeping : Bool) :
    (System.opened store).step (.takeAccess sweeping) =
      .opened { store with
        access := ∅
        sweeper := .flushing store.access sweeping } := by
  simp only [step, perform, onStore, OpenStore.takeAccess, idle]

/-- A successful `Get` queues its access time for a row of the table. -/
theorem step_of_got
    {store : OpenStore}
    {env : Env}
    {code content : Bytes}
    {paste : Paste}
    (got : (System.opened store).answer (.get env code) = .got paste content) :
    (System.opened store).step (.get env code) =
        .opened (store.recordAccess paste.seq (unix env.now)) ∧
      ∃ row ∈ store.db.pastes.rows, row.code = code ∧ row.seq = paste.seq := by
  have ended := store.get_outcome env code
  change Outcome store (.get env code)
    ((System.opened store).answer (.get env code))
    ((System.opened store).step (.get env code)) at ended
  rw [got] at ended
  generalize (System.opened store).step (.get env code) = next at ended ⊢
  cases ended with
  | got _ _ _ _ read =>
      obtain ⟨row, present, sameCode, _, rfl, _⟩ := get_eq_ok read
      exact ⟨rfl, row, present, sameCode, rfl⟩

/-- What a committed sweep has done. -/
theorem step_of_swept
    {store : OpenStore}
    (accounted : store.db.Accounted)
    {env : Env}
    {result : SweepResult}
    {error : Option Error}
    (swept : (System.opened store).answer (.sweep env) = .swept result error) :
    ∃ flushed, store.sweeper = .sweeping flushed ∧
      result = store.db.sweepResult store.options env.now flushed ∧
      (System.opened store).step (.sweep env) =
        .opened { store with
          db := store.db.swept store.options env.now
          sweeper := .idle } := by
  have ended := outcome_of_answer accounted swept
  generalize (System.opened store).step (.sweep env) = next at ended ⊢
  cases ended with
  | swept _ flushed sweeping => exact ⟨flushed, sweeping, rfl, rfl⟩

end System

end Store
end Haste
