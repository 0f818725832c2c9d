import Haste.Store.Histories

/-!
# Where an access time is

A read queues its access time; a flush takes the queue and writes it back.  So
an access time that is not lost is queued, or in flight, or written back to its
row.  One lemma follows it through every way a step can end: what loses it is a
crash, a later read recorded at an earlier second, or a flush that fails.
-/

namespace Haste
namespace Store

open Go
open Foundation

/-! ## Reads along a run -/

/-- The access time a step records for a row. -/
def Op.readOf (seq : Nat) (op : Op) (answer : Answer) : Option Int :=
  match op, answer with
  | .get env _, .got paste _ =>
      if paste.seq = seq then some (unix env.now) else none
  | _, _ => none

/-- The last access time a run records for a row. -/
def System.lastRead (seq : Nat) : System → List Op → Option Int
  | _, [] => none
  | system, op :: rest =>
      (lastRead seq (system.step op) rest).or (op.readOf seq (system.answer op))

/-- The queued access time of a row. -/
def System.queued (seq : Nat) : System → Option Int
  | .closed _ _ => none
  | .opened store => store.access.lookup seq

/-! ## Written back -/

/-- The row, if it is there, was last accessed no earlier than this. -/
def Database.Written (db : Database) (seq : Nat) (time : Int) : Prop :=
  ∀ row ∈ db.pastes.rows, row.seq = seq → time ≤ row.accessedAt

theorem Change.written
    {settings : Option Options}
    {db next : Database}
    (change : Change settings db next)
    {seq : Nat}
    {time : Int}
    (counted : seq ≤ db.pasteSeq)
    (written : db.Written seq time) :
    next.Written seq time := by
  intro row present sameSeq
  rcases change.row_cases present with
    ⟨old, oldPresent, same, le⟩ | ⟨_, _, _, paste, _, created, rfl⟩
  · rw [same] at sameSeq
    exact (written old oldPresent sameSeq).trans le
  · have above := created.allocated.above
    have number : paste.seq = seq := sameSeq
    omega

theorem Row.le_recency_of_lookup
    {row : Row}
    {pending : Access}
    {time : Int}
    (queued : pending.lookup row.seq = some time) :
    time ≤ row.recency pending.entries := by
  unfold Row.recency
  rw [show pending.entries.dlookup row.seq = some time from queued]
  exact le_max_right _ _

theorem Row.recency_cases (row : Row) (pending : Access) :
    row.recency pending.entries = row.accessedAt ∨
      pending.lookup row.seq = some (row.recency pending.entries) := by
  unfold Row.recency
  cases queued : pending.entries.dlookup row.seq with
  | none => exact Or.inl rfl
  | some time =>
      rcases max_choice row.accessedAt time with same | later
      · exact Or.inl same
      · simp only [later]
        exact Or.inr queued

/-- Writing back a queue writes back each of its times. -/
theorem Database.written_touch
    (db : Database)
    {pending : Access}
    {seq : Nat}
    {time later : Int}
    (queued : pending.lookup seq = some later)
    (le : time ≤ later) :
    (db.touch pending.entries).Written seq time := by
  intro row present sameSeq
  obtain ⟨old, _, rfl⟩ := List.mem_map.mp present
  have same : old.seq = seq := sameSeq
  subst same
  exact le.trans (Row.le_recency_of_lookup queued)

/-! ## Queued or in flight -/

namespace OpenStore

/-- An access time of a row that has not reached the table: it is queued, or
taken by the flush under way. -/
def InMemory (store : OpenStore) (seq : Nat) (time : Int) : Prop :=
  store.access.lookup seq = some time ∨
    ∃ pending sweeping, store.sweeper = .flushing pending sweeping ∧
      pending.lookup seq = some time

/-- An access at this time, or a later one, is not lost. -/
def Remembers (store : OpenStore) (seq : Nat) (time : Int) : Prop :=
  (∃ later, time ≤ later ∧ store.InMemory seq later) ∨
    store.db.Written seq time

/-- An access at this time, or a later one, is in flight or written back, unless
no flush is under way. -/
def Carries (store : OpenStore) (seq : Nat) (time : Int) : Prop :=
  (∃ pending sweeping later, store.sweeper = .flushing pending sweeping ∧
    pending.lookup seq = some later ∧ time ≤ later) ∨
    store.sweeper = .idle ∨ store.db.Written seq time

/-- Every row taken by the flush under way was read again meanwhile, at no
earlier second. -/
def Reread (store : OpenStore) : Prop :=
  ∀ pending sweeping, store.sweeper = .flushing pending sweeping →
    ∀ seq time, pending.lookup seq = some time →
      ∃ later, time ≤ later ∧ store.access.lookup seq = some later

end OpenStore

section Steps

variable
  {store next : OpenStore}
  {op : Op}
  {answer : Answer}
  (ended : Outcome store op answer (.opened next))
include ended

theorem Outcome.options_eq : next.options = store.options := by
  cases ended <;> rfl

/-- An access time in memory was there before the step, unless the step records
it. -/
theorem Outcome.inMemory_cases
    {seq : Nat}
    {time : Int}
    (inMemory : next.InMemory seq time) :
    store.InMemory seq time ∨ op.readOf seq answer = some time := by
  rcases inMemory with queued | ⟨pending, sweeping, flushing, taken⟩
  · cases ended with
    | got env code paste content read =>
        by_cases same : paste.seq = seq
        · subst same
          rw [OpenStore.recordAccess, AList.lookup_insert] at queued
          exact Or.inr ((if_pos rfl).trans queued)
        · rw [OpenStore.recordAccess, AList.lookup_insert_ne (Ne.symm same)]
            at queued
          exact Or.inl (Or.inl queued)
    | taken sweeping idle =>
        rw [AList.lookup_empty] at queued
        cases queued
    | _ => exact Or.inl (Or.inl queued)
  · cases ended with
    | taken sweeping idle =>
        cases flushing
        exact Or.inl (Or.inl taken)
    | unflushed | flushed | flushedForSweep | unswept | swept => cases flushing
    | _ => exact Or.inl (Or.inr ⟨pending, sweeping, flushing, taken⟩)

/-- A row after a step was there before it, with the same access time or with
one that was in memory, or is the one row a `Create` has stored. -/
theorem Outcome.row_cases
    {row : Row}
    (present : row ∈ next.db.pastes.rows) :
    (∃ old ∈ store.db.pastes.rows, row = old.withAccess row.accessedAt ∧
      (row.accessedAt = old.accessedAt ∨
        store.InMemory old.seq row.accessedAt)) ∨
    ∃ env request paste,
      Created store.options env request store.db paste next.db ∧
        row = paste.row (store.options.codec.compress request.content).1
          (store.options.codec.compress request.content).2 := by
  cases ended with
  | created env request paste db created =>
      have rows := present
      rw [created.stores.rows, List.mem_append, List.mem_singleton] at rows
      rcases rows with kept | new
      · exact Or.inl
          ⟨row, Database.mem_of_mem_discard kept, rfl, Or.inl rfl⟩
      · exact Or.inr ⟨env, request, paste, created, new⟩
  | flushed env pending flushing | flushedForSweep env pending flushing =>
      obtain ⟨old, oldPresent, rfl⟩ := List.mem_map.mp present
      refine Or.inl ⟨old, oldPresent, rfl, ?_⟩
      exact (old.recency_cases pending).imp id
        fun taken => Or.inr ⟨pending, _, flushing, taken⟩
  | swept env flushed sweeping =>
      exact Or.inl
        ⟨row, Database.mem_of_mem_swept present, rfl, Or.inl rfl⟩
  | _ => exact Or.inl ⟨row, present, rfl, Or.inl rfl⟩

/-- While a flush is under way the queue changes by the reads alone. -/
theorem Outcome.lookup_of_flushing
    {pending : Access}
    {sweeping : Bool}
    (flushing : store.sweeper = .flushing pending sweeping)
    (running : ∀ env, op ≠ .flushAccess env) :
    next.sweeper = .flushing pending sweeping ∧
      ∀ seq, next.access.lookup seq =
        (op.readOf seq answer).or (store.access.lookup seq) := by
  cases ended with
  | nothing op =>
      refine ⟨flushing, fun seq => ?_⟩
      cases op <;> rfl
  | got env code paste content read =>
      refine ⟨flushing, fun seq => ?_⟩
      unfold Op.readOf OpenStore.recordAccess
      by_cases same : paste.seq = seq
      · subst same
        simp
      · simp [same, AList.lookup_insert_ne (Ne.symm same)]
  | taken sweeping idle => cases flushing.symm.trans idle
  | unflushed env | flushed env | flushedForSweep env =>
      exact absurd rfl (running env)
  | unswept env flushed under | swept env flushed under =>
      cases flushing.symm.trans under
  | _ => exact ⟨flushing, fun seq => rfl⟩

/-- A step forgets an access time only if a read of the row recorded at an
earlier second takes its place in the queue, or a flush fails whose rows were
not all read again. -/
theorem Outcome.remembers
    {seq : Nat}
    {time : Int}
    (counted : seq ≤ store.db.pasteSeq)
    (change : Change (some store.options) store.db next.db)
    (forward : ∀ read queued, op.readOf seq answer = some read →
      store.access.lookup seq = some queued → time ≤ queued → time ≤ read)
    (reread : ∀ env error, op = .flushAccess env → answer = .failed error →
      store.Reread)
    (remembers : store.Remembers seq time) :
    next.Remembers seq time := by
  rcases remembers with ⟨later, le, queued | ⟨pending, sweeping, flushing, taken⟩⟩ |
    written
  · cases ended with
    | got env code paste content read =>
        apply Or.inl
        by_cases same : paste.seq = seq
        · subst same
          exact ⟨_, forward _ _ (if_pos rfl) queued le,
            Or.inl (AList.lookup_insert _)⟩
        · exact ⟨later, le, Or.inl
            ((AList.lookup_insert_ne (Ne.symm same)).trans queued)⟩
    | taken sweeping idle =>
        exact Or.inl ⟨later, le, Or.inr ⟨_, _, rfl, queued⟩⟩
    | _ => exact Or.inl ⟨later, le, Or.inl queued⟩
  · cases ended with
    | got env code paste content read =>
        exact Or.inl ⟨later, le, Or.inr ⟨pending, sweeping, flushing, taken⟩⟩
    | taken sweeping idle => cases flushing.symm.trans idle
    | unflushed env pending' sweeping' flushing' error interrupted =>
        obtain ⟨again, leAgain, queued⟩ :=
          reread env error rfl rfl pending sweeping flushing seq later taken
        exact Or.inl ⟨again, le.trans leAgain, Or.inl queued⟩
    | flushed env pending' flushing' | flushedForSweep env pending' flushing' =>
        rw [flushing] at flushing'
        cases flushing'
        exact Or.inr (store.db.written_touch taken le)
    | unswept env flushed under | swept env flushed under =>
        cases flushing.symm.trans under
    | _ => exact Or.inl ⟨later, le, Or.inr ⟨pending, sweeping, flushing, taken⟩⟩
  · exact Or.inr (change.written counted written)

/-- Only the start of a flush wakes the sweeper. -/
theorem Outcome.idle
    (notTaken : ∀ sweeping, op ≠ .takeAccess sweeping)
    (isIdle : store.sweeper = .idle) :
    next.sweeper = .idle := by
  cases ended with
  | taken sweeping => exact absurd rfl (notTaken sweeping)
  | flushedForSweep env pending under => cases isIdle.symm.trans under
  | unflushed | flushed | unswept | swept => rfl
  | _ => exact isIdle

/-- What a flush has taken stays in flight until the flush ends. -/
theorem Outcome.carries
    {seq : Nat}
    {time : Int}
    (counted : seq ≤ store.db.pasteSeq)
    (change : Change (some store.options) store.db next.db)
    (notTaken : ∀ sweeping, op ≠ .takeAccess sweeping)
    (carries : store.Carries seq time) :
    next.Carries seq time := by
  rcases carries with ⟨pending, sweeping, later, flushing, taken, le⟩ |
    idle | written
  · cases ended with
    | taken sweeping idle => exact absurd rfl (notTaken sweeping)
    | unflushed env pending' sweeping' flushing' error interrupted =>
        exact Or.inr (Or.inl rfl)
    | flushed env pending' flushing' | flushedForSweep env pending' flushing' =>
        rw [flushing] at flushing'
        cases flushing'
        exact Or.inr (Or.inr (store.db.written_touch taken le))
    | unswept env flushed under | swept env flushed under =>
        cases flushing.symm.trans under
    | _ => exact Or.inl ⟨pending, sweeping, later, flushing, taken, le⟩
  · exact Or.inr (Or.inl (ended.idle notTaken idle))
  · exact Or.inr (Or.inr (change.written counted written))

end Steps

namespace System

/-- A flush that fails had taken no row that was not read again meanwhile, at
no earlier second. -/
def FlushLosesNothing (system : System) (op : Op) : Prop :=
  ∀ store env error, system = .opened store → op = .flushAccess env →
    system.answer op = .failed error → store.Reread

/-- A flush in which nothing fails loses nothing. -/
theorem flushLosesNothing_of_clean
    {system : System}
    {op : Op}
    (clean : ∀ env, op = .flushAccess env → env.Clean) :
    system.FlushLosesNothing op := by
  rintro store env error rfl rfl failed
  have ended := store.flushAccess_outcome env
  change Outcome store (.flushAccess env)
    ((System.opened store).answer (.flushAccess env))
    ((System.opened store).step (.flushAccess env)) at ended
  rw [failed] at ended
  generalize (System.opened store).step (.flushAccess env) = next at ended
  cases ended with
  | unflushed _ _ _ _ _ interrupted =>
      exact absurd interrupted (clean env rfl).not_interrupted

/-- What is remembered when a flush takes the queue is taken or written back. -/
theorem carries_of_remembers
    {store : OpenStore}
    (idle : store.sweeper = .idle)
    {seq : Nat}
    {time : Int}
    (remembers : store.Remembers seq time)
    (sweeping : Bool) :
    ({ store with
      access := ∅
      sweeper := .flushing store.access sweeping } : OpenStore).Carries
        seq time := by
  rcases remembers with
    ⟨later, le, queued | ⟨pending, under, flushing, _⟩⟩ | written
  · exact Or.inl ⟨store.access, sweeping, later, rfl, queued, le⟩
  · cases idle.symm.trans flushing
  · exact Or.inr (Or.inr written)

/-- A read is remembered as long as flushes lose nothing and later reads of the
row are recorded at no earlier second. -/
theorem remembers_run
    {store : OpenStore}
    (accounted : store.db.Accounted)
    {seq : Nat}
    {time : Int}
    (counted : seq ≤ store.db.pasteSeq)
    (remembers : store.Remembers seq time)
    {ops : List Op}
    (running : ∀ op ∈ ops, op ≠ .shut)
    (admitted : Runs.Each step (fun system op => system.FlushLosesNothing op ∧
      ∀ later, op.readOf seq (system.answer op) = some later → time ≤ later)
      (.opened store) ops)
    {last : OpenStore}
    (reached : (System.opened store).run ops = .opened last) :
    seq ≤ last.db.pasteSeq ∧ last.Remembers seq time := by
  refine invariant_run_opened
    (fun store => seq ≤ store.db.pasteSeq ∧ store.Remembers seq time) ?_
    accounted ⟨counted, remembers⟩ running admitted reached
  rintro store op next ended change ⟨losesNothing, forward⟩ ⟨counted, remembers⟩
  exact ⟨counted.trans change.pasteSeq_le,
    ended.remembers counted change (fun read _ isRead _ _ => forward read isRead)
      (fun env error isFlush failed => losesNothing store env error rfl isFlush failed)
      remembers⟩

/-- The sweeper stays idle until a flush starts. -/
theorem idle_run
    {store : OpenStore}
    (accounted : store.db.Accounted)
    (idle : store.sweeper = .idle)
    {ops : List Op}
    (running : ∀ op ∈ ops, op ≠ .shut ∧ ∀ sweeping, op ≠ .takeAccess sweeping)
    {last : OpenStore}
    (reached : (System.opened store).run ops = .opened last) :
    last.sweeper = .idle :=
  invariant_run_opened (fun store => store.sweeper = .idle)
    (fun _ _ _ ended _ notTaken => ended.idle notTaken)
    accounted idle (fun op listed => (running op listed).1)
    (Runs.each_of_forall_mem fun op listed _ => (running op listed).2) reached

/-- What a flush has taken is written back when the sweep it belongs to goes
on. -/
theorem carries_run
    {store : OpenStore}
    (accounted : store.db.Accounted)
    {seq : Nat}
    {time : Int}
    (counted : seq ≤ store.db.pasteSeq)
    (carries : store.Carries seq time)
    {ops : List Op}
    (running : ∀ op ∈ ops, op ≠ .shut ∧ ∀ sweeping, op ≠ .takeAccess sweeping)
    {last : OpenStore}
    (reached : (System.opened store).run ops = .opened last) :
    last.Carries seq time := by
  refine (invariant_run_opened
    (fun store => seq ≤ store.db.pasteSeq ∧ store.Carries seq time) ?_
    accounted ⟨counted, carries⟩ (fun op listed => (running op listed).1)
    (Runs.each_of_forall_mem fun op listed _ => (running op listed).2)
    reached).2
  rintro store op next ended change notTaken ⟨counted, carries⟩
  exact ⟨counted.trans change.pasteSeq_le,
    ended.carries counted change notTaken carries⟩

end System

/-! ## The first paste -/

/-- A paste is created, under ten seconds to live since the last access. -/
def createFirst : List Op :=
  [.openFile Options.brief none, .create (.calm (ofUnix 100)) Request.small]

/-- A `Get` of the first paste. -/
def Op.readFirst (seconds : Int) : Op :=
  .get (.calm (ofUnix seconds)) (ascii "0")

/-- The first paste, as a read answers it. -/
def firstPaste : Paste :=
  ⟨1, ascii "0", [], [], 1, 1, 10, ofUnix 100, none⟩

/-- What is on disk once the paste is created. -/
def firstStored : Database :=
  ((System.closed .fresh none).run createFirst).content

/-- The store once the paste is created, with its queue and sweeper. -/
def firstStore (access : Access) (sweeper : Sweeper) : OpenStore where
  options := Options.brief
  db := firstStored
  access := access
  sweeper := sweeper

theorem run_createFirst :
    (System.closed .fresh none).run createFirst =
      .opened (firstStore ∅ .idle) := by
  have accounted : (System.openedFresh Options.brief).db.Accounted :=
    (openFile_spec none .fresh).2 rfl
  obtain ⟨paste, answered⟩ : ∃ paste, (System.opened
      (System.openedFresh Options.brief)).answer
        (.create (.calm (ofUnix 100)) Request.small) = .created paste :=
    System.exists_created_of_commits (by decide +kernel)
  obtain ⟨store, db, isFresh, stepped, _⟩ := System.created_of_answer
    (show (System.opened (System.openedFresh Options.brief)).Sound from
      accounted) answered
  cases isFresh
  have created : (System.closed .fresh none).run createFirst =
      .opened { System.openedFresh Options.brief with db } := stepped
  have stored : db = firstStored := (congrArg System.content created).symm
  rw [created, stored]
  rfl

theorem firstStored_accounted : firstStored.Accounted :=
  System.accounted_of_run (System.sound_closed .fresh none) run_createFirst

theorem answer_readFirst
    (access : Access)
    (sweeper : Sweeper)
    {seconds : Int}
    (listed : seconds ∈ [108, 109]) :
    (System.opened (firstStore access sweeper)).answer (.readFirst seconds) =
      .got firstPaste (ascii "a") := by
  have read : ∀ seconds ∈ [108, 109],
      get Options.brief (.calm (ofUnix seconds)) (ascii "0") firstStored =
        .ok (firstPaste, ascii "a") := by
    decide +kernel
  rw [Op.readFirst, System.answer_get]
  simp only [firstStore, read seconds listed]

/-- A queue that holds one read of the first paste. -/
def firstRead (seconds : Int) : Access := (∅ : Access).insert 1 seconds

theorem eq_of_lookup_firstRead
    {seconds time : Int}
    {seq : Nat}
    (queued : (firstRead seconds).lookup seq = some time) :
    seq = 1 ∧ time = seconds := by
  unfold firstRead at queued
  by_cases isFirst : seq = 1
  · subst isFirst
    rw [AList.lookup_insert] at queued
    exact ⟨rfl, (Option.some.inj queued).symm⟩
  · rw [AList.lookup_insert_ne isFirst, AList.lookup_empty] at queued
    cases queued

theorem step_readFirst
    (sweeper : Sweeper)
    {seconds : Int}
    (listed : seconds ∈ [108, 109]) :
    (System.opened (firstStore ∅ sweeper)).step (.readFirst seconds) =
      .opened (firstStore (firstRead seconds) sweeper) := by
  have stepped := (System.step_of_got (answer_readFirst ∅ sweeper listed)).1
  rw [Env.calm, unix_ofUnix] at stepped
  exact stepped

end Store
end Haste
