import Haste.Store.Serving

/-!
# Reads ahead of the table

The read queries look at the access time in the table, which lags behind the
reads until a flush.  So a paste that was read within the last-access lifetime
is served exactly when no read that the lifetime still covers is in memory only,
and as long as that is so, a paste that was not found is never found again.
-/

namespace Haste
namespace Store

open Go
open Foundation

/-- Every access of the row in memory that the last-access lifetime still covers
is matched by an access in the table that it covers. -/
def OpenStore.ShowsReads (store : OpenStore) (now : Int) (row : Row) : Prop :=
  ∀ time, store.InMemory row.seq time →
    withinTTL now store.options.ttlAccess time →
      withinTTL now store.options.ttlAccess row.accessedAt

/-! ## Being served -/

section Serving

variable
  {options : Options}
  {env now : Env}
  {request : Request}
  {before after : Database}
  {paste : Paste}
  (created : Created options env request before paste after)
  {current : OpenStore}
  (preserves : current.db.Preserves
    (paste.row (options.codec.compress request.content).1
      (options.codec.compress request.content).2))
  {row : Row}
  (present : row ∈ current.db.pastes.rows)
  (sameCode : row.code = paste.code)
include created preserves present sameCode

/-- A paste read within the last-access lifetime, and not hidden otherwise, is
served exactly when its reads show in the table. -/
theorem Created.served_iff_showsReads
    (inverts : options.codec.zstd.Inverts)
    (keeps : options.KeepsPastes current.options)
    (clean : now.Clean)
    {read : Int}
    (remembers : current.Remembers row.seq (unix read))
    (unexpired : row.unexpired now.now)
    (young : withinTTL now.now current.options.ttlCreate row.createdAt)
    (within : now.now + second ≤ read + current.options.ttlAccess) :
    ((∃ found content, (System.opened current).answer (.get now paste.code) =
        .got found content) ∧
      ∃ found, (System.opened current).answer (.metadata now paste.code) =
        .described found) ↔
      current.ShowsReads now.now row := by
  have readable : row.Readable current.options.codec.zstd := by
    rw [keeps.sameLibrary, preserves.unaltered row present sameCode]
    exact created.readable inverts
  rw [← sameCode, readable.got_iff_visible present clean,
    readable.described_iff_visible present clean, and_self, visible_iff]
  have covers : ∀ time, unix read ≤ time →
      withinTTL now.now current.options.ttlAccess time := by
    intro time le
    unfold withinTTL cutoff
    split
    · exact Or.inl rfl
    · refine Or.inr (lt_of_lt_of_le ?_ le)
      simp only [unix, second] at within ⊢
      omega
  constructor
  · rintro ⟨_, covered, _⟩ _ _ _
    exact covered
  · intro shows
    refine ⟨unexpired, ?_, young⟩
    rcases remembers with ⟨later, le, inMemory⟩ | written
    · exact shows later inMemory (covers later le)
    · exact covers _ (written row present rfl)

end Serving

/-! ## Not being found again -/

/-- No read from this instant on finds the row: its own lifetime or the creation
lifetime has run out, or the last-access lifetime has for each of its accesses,
also for those in memory. -/
inductive OpenStore.HidesFrom
    (store : OpenStore)
    (now : Int)
    (row : Row) : Prop
  | expired (due : row.expired now = true)
  | old (due : row.stale now store.options.ttlCreate Row.createdAt = true)
  | unread
      (due : row.stale now store.options.ttlAccess Row.accessedAt = true)
      (inMemory : ∀ time, store.InMemory row.seq time →
        time ≤ cutoff now store.options.ttlAccess)

theorem Row.stale_mono
    {row : Row}
    {now later ttl : Int}
    {column : Row → Int}
    (due : row.stale now ttl column = true)
    (le : now ≤ later) :
    row.stale later ttl column = true := by
  rw [Row.stale_iff] at due ⊢
  have mono := cutoff_mono le ttl
  omega

theorem Row.expired_mono
    {row : Row}
    {now later : Int}
    (due : row.expired now = true)
    (le : now ≤ later) :
    row.expired later = true := by
  rw [Row.expired_iff] at due ⊢
  exact mt (fun unexpired expires expiring =>
    (unix_mono le).trans_lt (unexpired expires expiring)) due

namespace OpenStore

variable
  {store : OpenStore}
  {row : Row}
  {now : Int}

/-- A row that is not visible stays hidden, unless a cutoff is negative or a
read of it that the last-access lifetime covers is in memory only. -/
theorem hidesFrom_of_not_visible
    (hidden : visible store.options now row = false)
    (shows : store.ShowsReads now row)
    (access : 0 ≤ cutoff now store.options.ttlAccess)
    (creation : 0 ≤ cutoff now store.options.ttlCreate) :
    store.HidesFrom now row := by
  have isHidden := mt (visible_iff _ _ _).mpr (Bool.eq_false_iff.mp hidden)
  by_cases unexpired : row.unexpired now
  · by_cases young : withinTTL now store.options.ttlCreate row.createdAt
    · have unread : ¬withinTTL now store.options.ttlAccess row.accessedAt :=
        fun covered => isHidden ⟨unexpired, covered, young⟩
      refine .unread ((not_withinTTL_iff_stale access).mp unread) ?_
      intro time inMemory
      have uncovered := mt (shows time inMemory) unread
      unfold withinTTL at uncovered
      omega
    · exact .old ((not_withinTTL_iff_stale creation).mp young)
  · exact .expired ((Row.expired_iff row now).mpr unexpired)

theorem HidesFrom.not_visible
    (hides : store.HidesFrom now row)
    {later : Int}
    (le : now ≤ later) :
    ¬visible store.options later row = true := by
  rw [visible_iff]
  rintro ⟨unexpired, covered, young⟩
  cases hides with
  | expired due =>
      exact (Row.expired_iff row later).mp (Row.expired_mono due le) unexpired
  | old due =>
      have stale := Row.stale_iff.mp (Row.stale_mono due le)
      unfold withinTTL at young
      omega
  | unread due inMemory =>
      have stale := Row.stale_iff.mp (Row.stale_mono due le)
      unfold withinTTL at covered
      omega

end OpenStore

section Steps

variable
  {store next : OpenStore}
  {op : Op}
  {answer : Answer}
  (ended : Outcome store op answer (.opened next))
  {row : Row}
  {now : Int}
include ended

/-- A read of a hidden row records no access. -/
theorem Outcome.readOf_eq_none
    (present : row ∈ store.db.pastes.rows)
    (hides : store.HidesFrom now row)
    (later : ∀ env, op = .get env row.code → now ≤ env.now) :
    op.readOf row.seq answer = none := by
  cases ended with
  | nothing op => cases op <;> rfl
  | got env code paste content read =>
      obtain ⟨found, foundPresent, sameCode, isVisible, rfl, _⟩ :=
        get_eq_ok read
      apply if_neg
      intro sameSeq
      obtain rfl : found = row :=
        Pastes.eq_of_seq_eq foundPresent present sameSeq
      subst sameCode
      exact hides.not_visible (later env rfl) isVisible
  | _ => rfl

/-- A step keeps a hidden row hidden. -/
theorem Outcome.hidesFrom
    {old : Row}
    (present : old ∈ store.db.pastes.rows)
    (hides : store.HidesFrom now old)
    (later : ∀ env, op = .get env old.code → now ≤ env.now)
    (same : row = old.withAccess row.accessedAt)
    (accessed : row.accessedAt = old.accessedAt ∨
      store.InMemory old.seq row.accessedAt) :
    next.HidesFrom now row := by
  have noRead := ended.readOf_eq_none present hides later
  have sameOptions := ended.options_eq
  have sameSeq : row.seq = old.seq := by
    rw [same]
    rfl
  have sameCreated : row.createdAt = old.createdAt := by
    rw [same]
    rfl
  have sameExpires : row.expiresAt = old.expiresAt := by
    rw [same]
    rfl
  cases hides with
  | expired due =>
      refine .expired ?_
      unfold Row.expired at due ⊢
      rwa [sameExpires]
  | old due =>
      refine .old ?_
      rw [Row.stale_iff] at due ⊢
      rwa [sameOptions, sameCreated]
  | unread due inMemory =>
      rw [Row.stale_iff] at due
      refine .unread ?_ ?_
      · rw [Row.stale_iff, sameOptions]
        refine ⟨due.1, ?_⟩
        rcases accessed with unchanged | written
        · exact unchanged.trans_le due.2
        · exact inMemory _ written
      · intro time nextInMemory
        rw [sameOptions]
        rw [sameSeq] at nextInMemory
        rcases ended.inMemory_cases nextInMemory with before | recorded
        · exact inMemory time before
        · cases noRead.symm.trans recorded

end Steps

namespace System

/-- As long as the store stays open and its code is only read at later instants,
a paste that no read finds from an instant on stays so. -/
theorem hidesFrom_run
    {first : Options}
    {stored : Row}
    {counter : Nat}
    (allocated : Allocated first.ids counter stored.seq stored.code)
    {store : OpenStore}
    (accounted : store.db.Accounted)
    (keeps : first.KeepsPastes store.options)
    (preserves : store.db.Preserves stored)
    {now : Int}
    (hides : ∀ row ∈ store.db.pastes.rows, row.code = stored.code →
      store.HidesFrom now row)
    {ops : List Op}
    (running : ∀ op ∈ ops, op ≠ .shut)
    (later : ∀ env, .get env stored.code ∈ ops → now ≤ env.now)
    {last : OpenStore}
    (reached : (System.opened store).run ops = .opened last) :
    ∀ row ∈ last.db.pastes.rows, row.code = stored.code →
      last.HidesFrom now row := by
  have admitted : Runs.Each step
      (fun _ op => ∀ env, op = .get env stored.code → now ≤ env.now)
      (.opened store) ops :=
    Runs.each_of_forall_mem fun op listed _ env isRead =>
      later env (isRead ▸ listed)
  refine (invariant_run_opened
    (fun store => first.KeepsPastes store.options ∧
      store.db.Preserves stored ∧
      ∀ row ∈ store.db.pastes.rows, row.code = stored.code →
        store.HidesFrom now row) ?_
    accounted ⟨keeps, preserves, hides⟩ running admitted reached).2.2
  rintro store op next ended change laterRead ⟨keeps, preserves, hides⟩
  refine ⟨?_, change.preserves keeps allocated preserves, ?_⟩
  · rwa [ended.options_eq]
  · intro row present sameCode
    rcases ended.row_cases present with
      ⟨old, oldPresent, same, accessed⟩ | ⟨env, request, paste, created, rfl⟩
    · have oldCode : old.code = stored.code := by
        rw [same] at sameCode
        exact sameCode
      refine ended.hidesFrom oldPresent (hides old oldPresent oldCode) ?_ same
        accessed
      intro env isRead
      rw [oldCode] at isRead
      exact laterRead env isRead
    · exact absurd sameCode.symm (allocated.code_ne keeps.keepsCodes
        created.allocated preserves.counted)

end System

section Kept

variable
  {options : Options}
  {env readEnv now : Env}
  {request : Request}
  {before after : Database}
  {paste : Paste}
  (created : Created options env request before paste after)
  {reader : OpenStore}
  (accounted : reader.db.Accounted)
  (keeps : options.KeepsPastes reader.options)
  (preserves : reader.db.Preserves
    (paste.row (options.codec.compress request.content).1
      (options.codec.compress request.content).2))
  {between : List Op}
  {current : OpenStore}
include created accounted keeps preserves

/-- With no failing flush since the read, and no read at an earlier second, the
paste is served exactly when its reads show in the table. -/
theorem Created.served_iff_of_read
    (inverts : options.codec.zstd.Inverts)
    {found : Paste}
    {content : Bytes}
    (got : (System.opened reader).answer (.get readEnv paste.code) =
      .got found content)
    (running : ∀ op ∈ between, op ≠ .shut ∧
      ∀ flushEnv, op = .flushAccess flushEnv → flushEnv.Clean)
    (forward : Runs.Each System.step (fun system op => ∀ later,
        op.readOf paste.seq (system.answer op) = some later →
          unix readEnv.now ≤ later)
      ((System.opened reader).step (.get readEnv paste.code)) between)
    (reached : (System.opened reader).run (.get readEnv paste.code :: between) =
      .opened current)
    {row : Row}
    (present : row ∈ current.db.pastes.rows)
    (sameCode : row.code = paste.code)
    (unexpired : row.unexpired now.now)
    (young : withinTTL now.now current.options.ttlCreate row.createdAt)
    (clean : now.Clean)
    (within : now.now + second ≤ readEnv.now + current.options.ttlAccess) :
    (∃ found content, (System.opened current).answer (.get now paste.code) =
        .got found content) ∧
      (∃ found, (System.opened current).answer (.metadata now paste.code) =
        .described found) ↔
      current.ShowsReads now.now row := by
  obtain ⟨stepped, read, readPresent, readCode, readSeq⟩ :=
    System.step_of_got got
  have isPaste : found.seq = paste.seq := by
    rw [← readSeq, preserves.unaltered read readPresent readCode]
    rfl
  have notShut : ∀ op ∈ .get readEnv paste.code :: between, op ≠ .shut := by
    rintro op (_ | ⟨_, listed⟩)
    · exact Op.noConfusion
    · exact (running op listed).1
  obtain ⟨currentKeeps, currentPreserves⟩ := System.preserves_run
    (show (System.opened reader).Sound from accounted)
    ⟨reader.options, rfl, keeps⟩ created.allocated preserves
    (System.reopensWith_of_running accounted notShut) reached
  have isRow : row.seq = paste.seq := by
    rw [currentPreserves.unaltered row present sameCode]
    rfl
  rw [System.run_cons, stepped] at reached
  rw [stepped] at forward
  have remembers := (System.remembers_run
    (show (reader.recordAccess found.seq (unix readEnv.now)).db.Accounted from
      accounted)
    preserves.counted
    (Or.inl ⟨_, le_rfl, Or.inl (by
      rw [isPaste]
      exact AList.lookup_insert _)⟩)
    (fun op listed => (running op listed).1)
    ((Runs.each_of_forall_mem fun op listed _ =>
      System.flushLosesNothing_of_clean (running op listed).2).and forward)
    reached).2
  refine created.served_iff_showsReads currentPreserves present sameCode inverts
    currentKeeps clean ?_ unexpired young within
  rw [isRow]
  exact remembers

/-- A paste that is not found while its reads show in the table is never found
again, unless a cutoff is negative. -/
theorem Created.notFound_run
    (missing : (System.opened reader).answer (.get readEnv paste.code) =
        .failed .notFound ∨
      (System.opened reader).answer (.metadata readEnv paste.code) =
        .failed .notFound)
    (shows : ∀ row ∈ reader.db.pastes.rows, row.code = paste.code →
      reader.ShowsReads readEnv.now row)
    (access : 0 ≤ cutoff readEnv.now reader.options.ttlAccess)
    (creation : 0 ≤ cutoff readEnv.now reader.options.ttlCreate)
    (running : ∀ op ∈ between, op ≠ .shut)
    (later : ∀ env, .get env paste.code ∈ between → readEnv.now ≤ env.now)
    (reached : (System.opened reader).run between = .opened current)
    (le : readEnv.now ≤ now.now)
    (clean : now.Clean) :
    (System.opened current).answer (.get now paste.code) = .failed .notFound ∧
      (System.opened current).answer (.metadata now paste.code) =
        .failed .notFound := by
  have hidden : ∀ row ∈ reader.db.pastes.rows, row.code = paste.code →
      visible reader.options readEnv.now row = false := by
    rw [System.answer_get_eq_failed_iff, System.answer_metadata_eq_failed_iff,
      get_eq_notFound_iff, metadata_eq_notFound_iff, created.wellFormed] at missing
    rcases missing with (malformed | ⟨_, hidden⟩) | malformed | ⟨_, hidden⟩
    · cases malformed
    · exact hidden
    · cases malformed
    · exact hidden
  have gone := System.hidesFrom_run created.allocated accounted keeps preserves
    (fun row present sameCode => OpenStore.hidesFrom_of_not_visible
      (hidden row present sameCode) (shows row present sameCode) access creation)
    running later reached
  have invisible : ∀ row ∈ current.db.pastes.rows, row.code = paste.code →
      visible current.options now.now row = false :=
    fun row present sameCode => Bool.eq_false_iff.mpr
      ((gone row present sameCode).not_visible le)
  rw [System.answer_get_eq_failed_iff, System.answer_metadata_eq_failed_iff,
    get_eq_notFound_iff, metadata_eq_notFound_iff]
  exact ⟨Or.inr ⟨clean _ _, invisible⟩, Or.inr ⟨clean _ _, invisible⟩⟩

end Kept

/-- A paste that was read within the last-access lifetime and is not hidden
otherwise is served exactly when its reads show in the table.  While they do and
no cutoff is negative, a paste that is not found is never found again. -/
theorem served_while_reads_show
    {file : File}
    {last : Option Options}
    {before : List Op}
    {store : OpenStore}
    (reached : (System.closed file last).run before = .opened store)
    (inverts : store.options.codec.zstd.Inverts)
    {env : Env}
    {request : Request}
    {paste : Paste}
    (created : (System.opened store).answer (.create env request) =
      .created paste)
    {during : List Op}
    (reopens : Runs.Each System.step
      (System.ReopensWith Options.KeepsPastes)
      ((System.opened store).step (.create env request)) during)
    {reader : OpenStore}
    (reachedReader : (System.opened store).run (.create env request :: during) =
      .opened reader) :
    (∀ env found content between current row now,
      (System.opened reader).answer (.get env paste.code) =
        .got found content →
      (∀ op ∈ between, op ≠ .shut ∧
        ∀ flushEnv, op = .flushAccess flushEnv → flushEnv.Clean) →
      Runs.Each System.step (fun system op => ∀ later,
          op.readOf paste.seq (system.answer op) = some later →
            unix env.now ≤ later)
        ((System.opened reader).step (.get env paste.code)) between →
      (System.opened reader).run (.get env paste.code :: between) =
        .opened current →
      row ∈ current.db.pastes.rows →
      row.code = paste.code →
      row.unexpired now.now →
      withinTTL now.now current.options.ttlCreate row.createdAt →
      now.Clean →
      now.now + second ≤ env.now + current.options.ttlAccess →
      ((∃ found content, (System.opened current).answer (.get now paste.code) =
          .got found content) ∧
        (∃ found, (System.opened current).answer (.metadata now paste.code) =
          .described found) ↔
        current.ShowsReads now.now row)) ∧
    ∀ env between current now,
      ((System.opened reader).answer (.get env paste.code) =
          .failed .notFound ∨
        (System.opened reader).answer (.metadata env paste.code) =
          .failed .notFound) →
      (∀ row ∈ reader.db.pastes.rows, row.code = paste.code →
        reader.ShowsReads env.now row) →
      0 ≤ cutoff env.now reader.options.ttlAccess →
      0 ≤ cutoff env.now reader.options.ttlCreate →
      (∀ op ∈ between, op ≠ .shut) →
      (∀ readEnv, .get readEnv paste.code ∈ between →
        env.now ≤ readEnv.now) →
      (System.opened reader).run between = .opened current →
      env.now ≤ now.now →
      now.Clean →
      (System.opened current).answer (.get now paste.code) =
          .failed .notFound ∧
        (System.opened current).answer (.metadata now paste.code) =
          .failed .notFound := by
  have sound : (System.opened store).Sound :=
    System.accounted_of_run (System.sound_closed file last) reached
  obtain ⟨same, db, isSame, stepped, isCreated⟩ :=
    System.created_of_answer sound created
  cases isSame
  have nextSound := (System.step_spec sound (.create env request)).1
  rw [System.run_cons] at reachedReader
  have accounted := System.accounted_of_run nextSound reachedReader
  rw [stepped] at nextSound reopens reachedReader
  obtain ⟨keeps, preserves⟩ := System.preserves_run nextSound
    ⟨store.options, rfl, rfl, rfl, rfl⟩ isCreated.allocated isCreated.preserves
    reopens reachedReader
  constructor
  · intro env found content between current row now got running forward
      reachedCurrent present sameCode unexpired young clean within
    exact isCreated.served_iff_of_read accounted keeps preserves inverts got
      running forward reachedCurrent present sameCode unexpired young clean within
  · intro env between current now missing shows access creation running later
      reachedCurrent le clean
    exact isCreated.notFound_run accounted keeps preserves missing shows access
      creation running later reachedCurrent le clean

/-- The first paste is served right after a read, and once it was not read for
ten seconds it stays away. -/
theorem served_while_reads_show_first :
    let asleep : List Op :=
      [.takeAccess false, .flushAccess (.calm (ofUnix 111))]
    ∃ reader read later row,
      (System.closed .fresh none).run createFirst = .opened reader ∧
      (System.opened reader).run [.readFirst 109] = .opened read ∧
      row ∈ read.db.pastes.rows ∧
      ((∃ found content, (System.opened read).answer (.readFirst 109) =
          .got found content) ∧
        (∃ found, (System.opened read).answer
          (.metadata (.calm (ofUnix 109)) (ascii "0")) = .described found) ↔
        read.ShowsReads (ofUnix 109) row) ∧
      (System.opened reader).run asleep = .opened later ∧
      (System.opened later).answer (.readFirst 112) = .failed .notFound ∧
      (System.opened later).answer
        (.metadata (.calm (ofUnix 112)) (ascii "0")) = .failed .notFound := by
  intro asleep
  have created : (System.opened (System.openedFresh Options.brief)).answer
      (.create (.calm (ofUnix 100)) Request.small) = .created firstPaste := by
    decide +kernel
  have spec := served_while_reads_show (System.run_openFresh Options.brief)
    Compress.rawFrames_inverts created
    (show Runs.Each System.step _ _ [] from trivial) run_createFirst
  have got := answer_readFirst ∅ .idle (show (109 : Int) ∈ [108, 109] by decide)
  have stepped := step_readFirst .idle (show (109 : Int) ∈ [108, 109] by decide)
  obtain ⟨_, same, answered⟩ := System.got_of_answer got
  cases same
  obtain ⟨row, present, sameCode, isVisible, _⟩ := get_eq_ok answered
  obtain ⟨unexpired, _, young⟩ := (visible_iff _ _ _).mp isVisible
  have missing : get Options.brief (.calm (ofUnix 110)) (ascii "0")
      firstStored = .error .notFound := by
    decide +kernel
  obtain ⟨later, slept, _⟩ := System.opened_run
    (show (firstStore ∅ .idle).db.Accounted from firstStored_accounted)
    (show ∀ op ∈ asleep, op ≠ .shut by simp [asleep])
  refine ⟨_, _, later, row, run_createFirst, stepped, present, ?_, slept, ?_⟩
  · exact spec.1 (.calm (ofUnix 109)) firstPaste (ascii "a") []
      (firstStore (firstRead 109) .idle) row (.calm (ofUnix 109)) got (by simp)
      trivial stepped present sameCode unexpired young (Env.clean_calm _)
      (by decide)
  · refine spec.2 (.calm (ofUnix 110)) asleep later (.calm (ofUnix 112))
      (Or.inl (System.answer_get_eq_failed_iff.mpr missing)) ?_ (by decide)
      (by decide) (by simp [asleep]) (by simp [asleep]) slept (by decide)
      (Env.clean_calm _)
    rintro row _ _ time (queued | ⟨_, _, flushing, _⟩)
    · cases queued
    · cases flushing

/-- A read that is still queued does not keep the paste from being not found two
seconds later, and after a flush it is found again. -/
theorem read_paste_not_found :
    let start := System.closed .fresh none
    let queued := createFirst ++ [.readFirst 109]
    let flushed := queued ++ [.readFirst 111, .takeAccess false,
      .flushAccess (.calm (ofUnix 111))]
    (start.run createFirst).answer (.readFirst 109) =
      .got firstPaste (ascii "a") ∧
    ofUnix 111 + second ≤ ofUnix 109 + Options.brief.ttlAccess ∧
    (start.run queued).answer (.readFirst 111) = .failed .notFound ∧
    (start.run queued).answer (.metadata (.calm (ofUnix 111)) (ascii "0")) =
      .failed .notFound ∧
    (start.run flushed).answer (.readFirst 112) =
      .got firstPaste (ascii "a") := by
  decide +kernel

end Store
end Haste
