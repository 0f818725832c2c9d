import Haste.Store.Serving

/-!
# What a sweep leaves

A sweep should leave the rows a read at its instant would serve, less those
evicted for space.  Its three deletes and the three conditions of the read
queries are written apart: they agree on a cutoff that is positive or zero, and
a negative one is heeded by the reads alone.
-/

namespace Haste
namespace Store

open Go
open Foundation

/-- A `Get` at this instant, in which nothing fails, serves the row. -/
def OpenStore.Serves (store : OpenStore) (now : Int) (row : Row) : Prop :=
  ∃ found content, (System.opened store).answer (.get (.calm now) row.code) =
    .got found content

/-! ## The rows a sweep leaves -/

/-- The rows the cap evicts, out of those whose own lifetime has not run out. -/
def Database.overCap (db : Database) (options : Options) (now : Int) : List Row :=
  (db.withoutExpired now).evicted options.maxBytes 0

/-- The rows over the cap are the least recently used ones. -/
theorem Database.overCap_prefix (db : Database) (options : Options) (now : Int) :
    db.overCap options now <+: (db.withoutExpired now).pastes.lruOrder :=
  (db.withoutExpired now).evicted_isPrefix _ _

theorem Database.mem_discard_iff
    {db : Database}
    {doomed : Row → Bool}
    {row : Row} :
    row ∈ (db.discard doomed).pastes.rows ↔
      row ∈ db.pastes.rows ∧ doomed row = false := by
  change row ∈ db.pastes.rows.filter _ ↔ _
  rw [List.mem_filter, Bool.not_eq_true']

/-- No rule of the sweep and no eviction takes the row. -/
structure Database.Spares
    (db : Database)
    (options : Options)
    (now : Int)
    (row : Row) : Prop where
  unexpired : row.expired now = false
  withinCap : row ∉ db.overCap options now
  read : row.stale now options.ttlAccess Row.accessedAt = false
  young : row.stale now options.ttlCreate Row.createdAt = false

theorem Database.mem_swept_iff
    {db : Database}
    {options : Options}
    {now : Int}
    {row : Row} :
    row ∈ (db.swept options now).pastes.rows ↔
      row ∈ db.pastes.rows ∧ db.Spares options now row := by
  unfold swept withoutUnread withinCap withRoom withoutExpired
  simp only [mem_discard_iff, List.contains_eq_mem, decide_eq_false_iff_not]
  constructor
  · rintro ⟨⟨⟨⟨present, unexpired⟩, withinCap⟩, read⟩, young⟩
    exact ⟨present, unexpired, withinCap, read, young⟩
  · rintro ⟨present, unexpired, withinCap, read, young⟩
    exact ⟨⟨⟨⟨present, unexpired⟩, withinCap⟩, read⟩, young⟩

/-- A negative cutoff, which a sweep skips and a read heeds, hides the time. -/
def NegativeCutoffHides (now ttl time : Int) : Prop :=
  cutoff now ttl < 0 ∧ time ≤ cutoff now ttl

/-- No row that a sweep spares is hidden by a negative cutoff. -/
def Database.SparedShow (db : Database) (options : Options) (now : Int) : Prop :=
  ∀ row ∈ db.pastes.rows, db.Spares options now row →
    ¬NegativeCutoffHides now options.ttlAccess row.accessedAt ∧
      ¬NegativeCutoffHides now options.ttlCreate row.createdAt

/-- A time that a sweep does not take is within the lifetime unless a negative
cutoff hides it. -/
theorem Row.withinTTL_iff
    {now ttl : Int}
    {column : Row → Int}
    {row : Row} :
    withinTTL now ttl (column row) ↔
      row.stale now ttl column = false ∧
        ¬NegativeCutoffHides now ttl (column row) := by
  rw [← Bool.not_eq_true, Row.stale_iff]
  unfold withinTTL NegativeCutoffHides
  omega

/-- The visible rows are those the rules take neither by a sweep nor by a
negative cutoff. -/
theorem Row.visible_iff_spared
    (options : Options)
    (now : Int)
    (row : Row) :
    visible options now row = true ↔
      row.expired now = false ∧
        row.stale now options.ttlAccess Row.accessedAt = false ∧
        row.stale now options.ttlCreate Row.createdAt = false ∧
        ¬NegativeCutoffHides now options.ttlAccess row.accessedAt ∧
        ¬NegativeCutoffHides now options.ttlCreate row.createdAt := by
  have expired : row.unexpired now ↔ row.expired now = false := by
    rw [← Bool.not_eq_true, Row.expired_iff, not_not]
  rw [visible_iff, expired, Row.withinTTL_iff, Row.withinTTL_iff]
  tauto

/-- A sweep leaves the visible rows within the cap exactly when no row it spares
is hidden by a negative cutoff. -/
theorem Database.swept_eq_visible_iff
    (db : Database)
    (options : Options)
    (now : Int) :
    (∀ row, row ∈ (db.swept options now).pastes.rows ↔
      row ∈ db.pastes.rows ∧ visible options now row = true ∧
        row ∉ db.overCap options now) ↔
      db.SparedShow options now := by
  unfold SparedShow
  apply forall_congr'
  intro row
  rw [mem_swept_iff, Row.visible_iff_spared]
  constructor
  · intro leaves present spared
    obtain ⟨_, ⟨_, _, _, shows⟩, _⟩ := leaves.mp ⟨present, spared⟩
    exact shows
  · intro shows
    constructor
    · rintro ⟨present, spared⟩
      exact ⟨present, ⟨spared.unexpired, spared.read, spared.young,
        shows present spared⟩, spared.withinCap⟩
    · rintro ⟨present, ⟨unexpired, read, young, _⟩, withinCap⟩
      exact ⟨present, unexpired, withinCap, read, young⟩

/-! ## The counters of a sweep -/

theorem Database.length_discard (db : Database) (doomed : Row → Bool) :
    (db.pastes.rows.filter doomed).length +
      (db.discard doomed).pastes.rows.length = db.pastes.rows.length :=
  (List.length_eq_length_filter_add doomed).symm

/-- The evicted rows are as many as the table has fewer. -/
theorem Database.length_withRoom
    (db : Database)
    (maxBytes : Int)
    (size : Nat) :
    (db.evicted maxBytes size).length +
      (db.withRoom maxBytes size).pastes.rows.length =
        db.pastes.rows.length := by
  have listed : (db.pastes.rows.filter fun row =>
      (db.evicted maxBytes size).contains row).Perm
        (db.evicted maxBytes size) := by
    unfold evicted
    split
    · exact Pastes.filter_contains_perm (Pastes.lruPrefix_nodup _)
        fun row covered => Pastes.mem_of_mem_lruPrefix covered
    · simp
  rw [← listed.length_eq]
  exact db.length_discard _

/-- The four counters add up to the number of rows removed. -/
theorem Database.sweepResult_removed
    (db : Database)
    (options : Options)
    (now flushed : Int) :
    (db.sweepResult options now flushed).removed =
      db.pastes.rows.length - (db.swept options now).pastes.rows.length := by
  have expired := db.length_discard (Row.expired now)
  have overCap := (db.withoutExpired now).length_withRoom options.maxBytes 0
  have unread := (db.withinCap options now).length_discard
    (Row.stale now options.ttlAccess Row.accessedAt)
  have old := (db.withoutUnread options now).length_discard
    (Row.stale now options.ttlCreate Row.createdAt)
  unfold SweepResult.removed sweepResult
  simp only [withoutUnread, withinCap, withoutExpired, swept] at *
  omega

/-! ## Whole sweeps -/

namespace System

/-- A flush that a sweep goes on from has written back the whole queue. -/
theorem flushed_of_swept
    {store : OpenStore}
    (accounted : store.db.Accounted)
    (idle : store.sweeper = .idle)
    {flushEnv : Env}
    {flushed : OpenStore}
    (reachedFlushed : (System.opened store).run
      [.takeAccess true, .flushAccess flushEnv] = .opened flushed)
    {between : List Op}
    (running : ∀ op ∈ between,
      op ≠ .shut ∧ ∀ sweeping, op ≠ .takeAccess sweeping)
    {last : OpenStore}
    (reachedLast : (System.opened flushed).run between = .opened last)
    {count : Int}
    (sweeping : last.sweeper = .sweeping count) :
    flushed.db = store.db.touch store.access.entries := by
  have flushedAccounted := accounted_of_run
    (show (System.opened store).Sound from accounted) reachedFlushed
  rw [run_cons, step_takeAccess_of_idle idle] at reachedFlushed
  have stepped : OpenStore.flushAccess { store with
      access := ∅
      sweeper := .flushing store.access true } flushEnv =
        (_, flushed) :=
    Prod.ext rfl (System.opened.inj reachedFlushed)
  rcases OpenStore.flushAccess_cases
    (show ({ store with
      access := ∅
      sweeper := .flushing store.access true } : OpenStore).sweeper = _ from rfl)
    flushEnv with ⟨error, _, ended⟩ | ended
  · cases (congrArg Prod.snd stepped).symm.trans (congrArg Prod.snd ended)
    have isIdle := idle_run flushedAccounted rfl running reachedLast
    cases isIdle.symm.trans sweeping
  · cases (congrArg Prod.snd stepped).symm.trans (congrArg Prod.snd ended)
    rfl

end System

/-- A sweep first writes back the queue.  It then leaves the rows that `Get`
serves at its instant, less the least recently used ones over the cap, exactly
when no row it spares is hidden by a negative cutoff; its counters add up to the
rows removed, and the bytes it answers are those of the rows left. -/
theorem sweep_leaves_served
    {zstd : Compress.Gozstd}
    (inverts : zstd.Inverts)
    {before : List Op}
    (opens : ∀ options stopped, .openFile options stopped ∈ before →
      options.codec.zstd = zstd)
    {store : OpenStore}
    (reached : (System.closed .fresh none).run before = .opened store)
    (idle : store.sweeper = .idle)
    {flushEnv : Env}
    {flushed : OpenStore}
    (reachedFlushed : (System.opened store).run
      [.takeAccess true, .flushAccess flushEnv] = .opened flushed)
    {between : List Op}
    (running : ∀ op ∈ between,
      op ≠ .shut ∧ ∀ sweeping, op ≠ .takeAccess sweeping)
    {last : OpenStore}
    (reachedLast : (System.opened flushed).run between = .opened last)
    {env : Env}
    {result : SweepResult}
    {error : Option Error}
    (swept : (System.opened last).answer (.sweep env) = .swept result error) :
    let left := ((System.opened last).step (.sweep env)).content.pastes
    let overCap := last.db.overCap last.options env.now
    flushed.db = store.db.touch store.access.entries ∧
    overCap <+: (last.db.withoutExpired env.now).pastes.lruOrder ∧
    ((∀ row, row ∈ left.rows ↔
        row ∈ last.db.pastes.rows ∧ last.Serves env.now row ∧ row ∉ overCap) ↔
      last.db.SparedShow last.options env.now) ∧
    (last.options.maxBytes = 0 →
      ((∀ row, row ∈ left.rows ↔
          row ∈ last.db.pastes.rows ∧ last.Serves env.now row) ↔
        last.db.SparedShow last.options env.now)) ∧
    result.removed = last.db.pastes.rows.length - left.rows.length ∧
    result.storedBytes = left.totalBytes := by
  intro left overCap
  have accounted := System.accounted_of_run
    (System.sound_closed .fresh none) reached
  have flushedAccounted := System.accounted_of_run
    (show (System.opened store).Sound from accounted) reachedFlushed
  have lastAccounted := System.accounted_of_run
    (show (System.opened flushed).Sound from flushedAccounted) reachedLast
  obtain ⟨count, sweeping, rfl, stepped⟩ :=
    System.step_of_swept lastAccounted swept
  have notShut : ∀ op ∈ [.takeAccess true, .flushAccess flushEnv] ++ between,
      op ≠ .shut := by
    rintro op (_ | ⟨_, _ | ⟨_, listed⟩⟩)
    · exact Op.noConfusion
    · exact Op.noConfusion
    · exact (running op listed).1
  have isLeft : left = (last.db.swept last.options env.now).pastes := by
    rw [show left = ((System.opened last).step (.sweep env)).content.pastes
      from rfl, stepped]
    rfl
  have served : ∀ row ∈ last.db.pastes.rows,
      (last.Serves env.now row ↔ visible last.options env.now row = true) := by
    obtain ⟨library, readable⟩ := System.readable_of_run inverts opens reached
    obtain ⟨sameOptions, lastReadable⟩ := System.readable_run accounted
      (by rwa [library]) (by rwa [library]) notShut
      (show (System.opened store).run
        ([.takeAccess true, .flushAccess flushEnv] ++ between) = .opened last by
          rw [System.run_append, reachedFlushed]
          exact reachedLast)
    rw [← sameOptions] at lastReadable
    exact fun row present =>
      (lastReadable row present).got_iff_visible present (Env.clean_calm env.now)
  have leaves : (∀ row, row ∈ left.rows ↔
      row ∈ last.db.pastes.rows ∧ last.Serves env.now row ∧ row ∉ overCap) ↔
        last.db.SparedShow last.options env.now := by
    rw [isLeft, ← Database.swept_eq_visible_iff]
    refine forall_congr' fun row => iff_congr Iff.rfl ?_
    exact and_congr_right fun present =>
      and_congr_left fun _ => served row present
  refine ⟨System.flushed_of_swept accounted idle reachedFlushed running
    reachedLast sweeping, last.db.overCap_prefix _ _, leaves, ?_, ?_, ?_⟩
  · intro uncapped
    have noneOver : overCap = [] := by
      change (last.db.withoutExpired env.now).evicted _ _ = []
      rw [uncapped]
      rfl
    rw [← leaves, noneOver]
    simp
  · rw [isLeft]
    exact last.db.sweepResult_removed _ _ _
  · rw [isLeft]
    exact (lastAccounted.swept _ _).stored

/-- The first paste was read four seconds before a sweep and stays. -/
theorem sweep_leaves_served_first :
    let sweep : Op := .sweep (.calm (ofUnix 112))
    ∃ store last,
      (System.closed .fresh none).run (createFirst ++ [.readFirst 108]) =
        .opened store ∧
      (System.opened store).run
        [.takeAccess true, .flushAccess (.calm (ofUnix 112))] = .opened last ∧
      (System.opened last).answer sweep = .swept ⟨1, 0, 0, 0, 0, 10⟩ none ∧
      last.db = store.db.touch store.access.entries ∧
      ∀ row, row ∈ ((System.opened last).step sweep).content.pastes.rows ↔
        row ∈ last.db.pastes.rows ∧ last.Serves (ofUnix 112) row := by
  intro sweep
  have stepped := step_readFirst .idle (show (108 : Int) ∈ [108, 109] by decide)
  have reached : (System.closed .fresh none).run
      (createFirst ++ [.readFirst 108]) =
        .opened (firstStore (firstRead 108) .idle) := by
    rw [System.run_append, run_createFirst]
    exact stepped
  have accounted := System.accounted_of_run
    (System.sound_closed .fresh none) reached
  obtain ⟨last, reachedLast, sameOptions, _⟩ := System.opened_run accounted
    (show ∀ op ∈ [Op.takeAccess true, .flushAccess (.calm (ofUnix 112))],
      op ≠ .shut by simp)
  have swept : (System.opened last).answer sweep =
      .swept ⟨1, 0, 0, 0, 0, 10⟩ none := by
    rw [← reachedLast, ← reached]
    decide +kernel
  have opens : ∀ options stopped,
      .openFile options stopped ∈ createFirst ++ [.readFirst 108] →
        options.codec.zstd = Compress.rawFrames := by
    rintro options stopped opening
    simp only [createFirst, Op.readFirst, List.cons_append, List.nil_append,
      List.mem_cons, Op.openFile.injEq, reduceCtorEq, List.not_mem_nil,
      or_false] at opening
    rw [opening.1]
    rfl
  have spec := sweep_leaves_served Compress.rawFrames_inverts opens reached rfl
    reachedLast (fun op listed => absurd listed List.not_mem_nil)
    (show (System.opened last).run [] = .opened last from rfl) swept
  have spared : last.db.SparedShow last.options (ofUnix 112) := by
    rintro row _ _
    rw [sameOptions]
    exact ⟨fun hides => absurd hides.1 (by decide),
      fun hides => absurd hides.1 (by decide)⟩
  have uncapped : last.options.maxBytes = 0 := by
    rw [sameOptions]
    rfl
  exact ⟨_, last, reached, reachedLast, swept, spec.1,
    (spec.2.2.2.1 uncapped).mpr spared⟩

/-- Before the epoch a sweep may leave a row that a `Get` at its instant does
not find. -/
theorem sweep_leaves_unserved :
    let start := System.closed .fresh none
    let early : List Op := [.openFile Options.brief none,
      .create (.calm (ofUnix (-100))) Request.small, .takeAccess true,
      .flushAccess (.calm (ofUnix (-50)))]
    let sweep : Op := .sweep (.calm (ofUnix (-50)))
    (start.run early).answer sweep = .swept ⟨0, 0, 0, 0, 0, 10⟩ none ∧
    ¬∀ row ∈ ((start.run early).step sweep).content.pastes.rows,
      ∃ found content, (start.run early).answer
        (.get (.calm (ofUnix (-50))) row.code) = .got found content := by
  intro start early sweep
  refine ⟨by decide +kernel, ?_⟩
  intro serves
  have codes : ((start.run early).step sweep).content.pastes.rows.map Row.code =
      [ascii "0"] := by
    decide +kernel
  have missing : (start.run early).answer
      (.get (.calm (ofUnix (-50))) (ascii "0")) = .failed .notFound := by
    decide +kernel
  obtain ⟨row, present, isFirst⟩ := List.mem_map.mp
    (show ascii "0" ∈ ((start.run early).step sweep).content.pastes.rows.map
      Row.code by
        rw [codes]
        exact List.mem_singleton_self _)
  obtain ⟨found, content, served⟩ := serves row present
  rw [isFirst, missing] at served
  cases served

end Store
end Haste
