import Haste.Store.Recency

/-!
# A flush that fails

`FlushAccess` swaps the queue for an empty one before anything can fail, and
does not put back what it took.  So a flush that fails loses the access of
every row that was not read again meanwhile, and the next sweep may delete a
paste that was read well within the last-access lifetime.
-/

namespace Haste
namespace Store

open Go
open Foundation
open Foundation.Transaction

namespace System

/-- While a flush is under way the queue holds the last reads of the run, over
what it held. -/
theorem lookup_run_of_flushing
    {store : OpenStore}
    (accounted : store.db.Accounted)
    {pending : Access}
    {sweeping : Bool}
    (flushing : store.sweeper = .flushing pending sweeping)
    {ops : List Op}
    (running : ∀ op ∈ ops, op ≠ .shut ∧ ∀ env, op ≠ .flushAccess env) :
    ∃ later, (System.opened store).run ops = .opened later ∧
      later.db.Accounted ∧
      later.sweeper = .flushing pending sweeping ∧
      ∀ seq, later.access.lookup seq =
        (lastRead seq (.opened store) ops).or (store.access.lookup seq) := by
  induction ops generalizing store with
  | nil => exact ⟨store, rfl, accounted, flushing, fun seq => rfl⟩
  | cons op rest inductionHypothesis =>
      obtain ⟨first, restRunning⟩ := List.forall_mem_cons.mp running
      obtain ⟨next, stepped, _, nextAccounted⟩ := opened_step accounted first.1
      have ended := outcome accounted op
      rw [stepped] at ended
      obtain ⟨nextFlushing, lookups⟩ := ended.lookup_of_flushing flushing first.2
      obtain ⟨later, reached, laterAccounted, laterFlushing, laterLookups⟩ :=
        inductionHypothesis nextAccounted nextFlushing restRunning
      refine ⟨later, ?_, laterAccounted, laterFlushing, fun seq => ?_⟩
      · rw [run_cons, stepped]
        exact reached
      · rw [laterLookups, lookups, lastRead, stepped, Option.or_assoc]

/-- A flush that fails leaves the store as it was, without what it had taken. -/
theorem step_of_flush_failed
    {store : OpenStore}
    (accounted : store.db.Accounted)
    {env : Env}
    {error : Error}
    (failed : (System.opened store).answer (.flushAccess env) = .failed error) :
    (System.opened store).step (.flushAccess env) =
      .opened { store with sweeper := .idle } := by
  have ended := outcome_of_answer accounted failed
  generalize (System.opened store).step (.flushAccess env) = next at ended ⊢
  cases ended with
  | unflushed => rfl

/-- A sweep that started after a read, with flushes losing nothing in between,
takes the row under the last-access rule only if the read is not within it. -/
theorem read_le_cutoff_of_swept
    {store : OpenStore}
    (sound : (System.opened store).Sound)
    (numbered : store.db.Numbered)
    {env : Env}
    {code content : Bytes}
    {paste : Paste}
    (got : (System.opened store).answer (.get env code) = .got paste content)
    {between : List Op}
    (running : ∀ op ∈ between, op ≠ .shut)
    (admitted : Runs.Each step (fun system op => system.FlushLosesNothing op ∧
      ∀ later, op.readOf paste.seq (system.answer op) = some later →
        unix env.now ≤ later)
      ((System.opened store).step (.get env code)) between)
    {idle : OpenStore}
    (reached : (System.opened store).run (.get env code :: between) =
      .opened idle)
    (isIdle : idle.sweeper = .idle)
    {rest : List Op}
    (sweeping : ∀ op ∈ rest,
      op ≠ .shut ∧ ∀ sweeping, op ≠ .takeAccess sweeping)
    {last : OpenStore}
    (reachedLast : (System.opened idle).run (.takeAccess true :: rest) =
      .opened last)
    {sweepEnv : Env}
    {result : SweepResult}
    {error : Option Error}
    (swept : (System.opened last).answer (.sweep sweepEnv) =
      .swept result error)
    {row : Row}
    (present : row ∈
      (last.db.withinCap last.options sweepEnv.now).pastes.rows)
    (sameSeq : row.seq = paste.seq)
    (stale : row.stale sweepEnv.now last.options.ttlAccess Row.accessedAt =
      true) :
    unix env.now ≤ cutoff sweepEnv.now last.options.ttlAccess := by
  obtain ⟨stepped, found, foundPresent, _, foundSeq⟩ := step_of_got got
  have counted : paste.seq ≤ store.db.pasteSeq := by
    rw [← foundSeq]
    exact numbered found foundPresent
  rw [run_cons, stepped] at reached
  rw [stepped] at admitted
  have accounted : (store.recordAccess paste.seq (unix env.now)).db.Accounted :=
    sound
  obtain ⟨idleCounted, remembers⟩ := remembers_run accounted counted
    (Or.inl ⟨_, le_rfl, Or.inl (AList.lookup_insert _)⟩) running admitted reached
  have idleAccounted := accounted_of_run
    (show (System.opened (store.recordAccess _ _)).Sound from accounted) reached
  rw [run_cons, step_takeAccess_of_idle isIdle] at reachedLast
  have takenAccounted : ({ idle with
      access := ∅
      sweeper := .flushing idle.access true } : OpenStore).db.Accounted :=
    idleAccounted
  have lastAccounted := accounted_of_run
    (show (System.opened _).Sound from takenAccounted) reachedLast
  have carries := carries_run takenAccounted idleCounted
    (carries_of_remembers isIdle remembers true) sweeping reachedLast
  obtain ⟨_, underWay, _⟩ := step_of_swept lastAccounted swept
  have written : last.db.Written paste.seq (unix env.now) := by
    rcases carries with ⟨pending, under, later, flushing, _⟩ | isIdle | written
    · cases underWay.symm.trans flushing
    · cases underWay.symm.trans isIdle
    · exact written
  exact (written row (Database.mem_of_mem_discard
    (Database.mem_of_mem_discard present)) sameSeq).trans (Row.stale_iff.mp stale).2

/-! ## Failing flushes -/

/-- Every access queued before is queued after, at its time or a later one. -/
def KeepsQueue (before after : System) : Prop :=
  ∀ seq time, before.queued seq = some time →
    ∃ later, time ≤ later ∧ after.queued seq = some later

/-- A run that takes the queue reads every queued row again, at no earlier
second. -/
def RereadsQueue (system : System) (ops : List Op) : Prop :=
  ∀ seq time, system.queued seq = some time →
    ∃ later, time ≤ later ∧ lastRead seq system ops = some later

/-- A flush that fails keeps the queue exactly when the reads since it took the
queue have filled it again. -/
theorem keepsQueue_iff_of_flush_failed
    {store : OpenStore}
    (accounted : store.db.Accounted)
    (idle : store.sweeper = .idle)
    {sweeping : Bool}
    {between : List Op}
    (running : ∀ op ∈ between, op ≠ .shut ∧ ∀ env, op ≠ .flushAccess env)
    {env : Env}
    {error : Error}
    (failed : ((System.opened store).run (.takeAccess sweeping :: between)).answer
      (.flushAccess env) = .failed error) :
    (System.opened store).KeepsQueue
        ((System.opened store).run
          (.takeAccess sweeping :: between ++ [.flushAccess env])) ↔
      (System.opened store).RereadsQueue (.takeAccess sweeping :: between) := by
  have taken := step_takeAccess_of_idle idle sweeping
  rw [run_cons, taken] at failed
  obtain ⟨later, reached, laterAccounted, _, lookups⟩ := lookup_run_of_flushing
    (show ({ store with
      access := ∅
      sweeper := .flushing store.access sweeping } : OpenStore).db.Accounted from
        accounted)
    rfl running
  rw [reached] at failed
  have ended := step_of_flush_failed laterAccounted failed
  have queued : ∀ seq, ((System.opened store).run
      (.takeAccess sweeping :: between ++ [.flushAccess env])).queued seq =
        lastRead seq (.opened store) (.takeAccess sweeping :: between) := by
    intro seq
    rw [run_append, run_cons, run_cons, taken, reached, ended, lastRead, taken]
    exact lookups seq
  unfold KeepsQueue RereadsQueue
  simp only [queued]

/-- If every flush that fails had taken only rows that were read again, then no
flush loses an access, and a sweep started after a read deletes the paste under
the last-access rule only when the read is older than its lifetime. -/
theorem failed_flush_loses_nothing
    {before : List Op}
    {store : OpenStore}
    (reached : (System.closed .fresh none).run before = .opened store) :
    (∀ sweeping between env error,
      store.sweeper = .idle →
      (∀ op ∈ between, op ≠ .shut ∧ ∀ env, op ≠ .flushAccess env) →
      ((System.opened store).run (.takeAccess sweeping :: between)).answer
        (.flushAccess env) = .failed error →
      ((System.opened store).KeepsQueue
          ((System.opened store).run
            (.takeAccess sweeping :: between ++ [.flushAccess env])) ↔
        (System.opened store).RereadsQueue (.takeAccess sweeping :: between))) ∧
    ∀ env code paste content between idle rest last sweepEnv result error,
      (System.opened store).answer (.get env code) = .got paste content →
      (∀ op ∈ between, op ≠ .shut) →
      Runs.Each step (fun system op => system.FlushLosesNothing op ∧
          ∀ later, op.readOf paste.seq (system.answer op) = some later →
            unix env.now ≤ later)
        ((System.opened store).step (.get env code)) between →
      (System.opened store).run (.get env code :: between) = .opened idle →
      idle.sweeper = .idle →
      (∀ op ∈ rest, op ≠ .shut ∧ ∀ sweeping, op ≠ .takeAccess sweeping) →
      (System.opened idle).run (.takeAccess true :: rest) = .opened last →
      (System.opened last).answer (.sweep sweepEnv) = .swept result error →
      cutoff sweepEnv.now last.options.ttlAccess < unix env.now →
      ∀ row ∈ (last.db.withinCap last.options sweepEnv.now).pastes.rows,
        row.seq = paste.seq →
        row ∈ (last.db.withoutUnread last.options sweepEnv.now).pastes.rows := by
  have sound := accounted_of_run (sound_closed .fresh none) reached
  have numbered := numbered_run before
  rw [reached] at numbered
  refine ⟨fun sweeping between env error idle running failed =>
    keepsQueue_iff_of_flush_failed sound idle running failed, ?_⟩
  intro env code paste content between idle rest last sweepEnv result error got
    running admitted reachedIdle isIdle sweeping reachedLast swept recent row
    present sameSeq
  refine List.mem_filter.mpr ⟨present, ?_⟩
  rw [Bool.not_eq_true']
  by_contra notSpared
  have stale := Bool.eq_true_of_not_eq_false notSpared
  exact absurd (read_le_cutoff_of_swept sound numbered got running admitted
    reachedIdle isIdle sweeping reachedLast swept present sameSeq stale)
    (not_le.mpr recent)

end System

/-! ## Two runs -/

/-- A call at this time in which every statement fails. -/
def Env.broken (now : Int) : Env where
  now := now
  admission := none
  fails _ _ := true

/-- A flush with something to write back fails as soon as a statement does. -/
theorem answer_flushAccess_broken
    {store : OpenStore}
    {pending : Access}
    {sweeping : Bool}
    (flushing : store.sweeper = .flushing pending sweeping)
    (nonempty : pending.entries ≠ [])
    (now : Int) :
    (System.opened store).answer (.flushAccess (.broken now)) =
      .failed (.statement .beginFlush .environment) := by
  have transacted : transact (flushTx (.broken now) pending) store.db =
      (.error (.statement .beginFlush .environment), store.db) := by
    unfold flushTx
    rw [if_neg (by simpa using nonempty)]
    rfl
  simp only [System.answer, System.perform, System.onStore,
    OpenStore.flushAccess, flushing, transacted, OpenStore.afterFlush]

/-- A flush that fails after its only row was read again keeps the queue, and
the next sweep keeps the paste. -/
theorem failed_flush_loses_nothing_reread :
    let failing : List Op := [.takeAccess false, .readFirst 109,
      .flushAccess (.broken (ofUnix 110))]
    ∃ store idle last,
      (System.closed .fresh none).run (createFirst ++ [.readFirst 108]) =
        .opened store ∧
      ((System.opened store).KeepsQueue ((System.opened store).run failing) ↔
        (System.opened store).RereadsQueue (failing.take 2)) ∧
      (System.opened store).run failing = .opened idle ∧
      (System.opened idle).run
        [.takeAccess true, .flushAccess (.calm (ofUnix 117))] = .opened last ∧
      ∀ row ∈ (last.db.withinCap last.options (ofUnix 117)).pastes.rows,
        row.seq = 1 →
        row ∈ (last.db.withoutUnread last.options (ofUnix 117)).pastes.rows := by
  intro failing
  let flushing : Sweeper := .flushing (firstRead 108) false
  have first := step_readFirst .idle (show (108 : Int) ∈ [108, 109] by decide)
  have again := step_readFirst flushing (show (109 : Int) ∈ [108, 109] by decide)
  have reached : (System.closed .fresh none).run
      (createFirst ++ [.readFirst 108]) =
        .opened (firstStore (firstRead 108) .idle) := by
    rw [System.run_append, run_createFirst]
    exact first
  have failed := answer_flushAccess_broken
    (show (firstStore (firstRead 109) flushing).sweeper = _ from rfl)
    (by decide) (ofUnix 110)
  have ended := System.step_of_flush_failed
    (show (firstStore (firstRead 109) flushing).db.Accounted from
      firstStored_accounted)
    failed
  have idleReached : (System.opened (firstStore (firstRead 108) .idle)).run
      failing = .opened (firstStore (firstRead 109) .idle) := by
    change ((System.opened (firstStore ∅ flushing)).step (.readFirst 109)).step
      (.flushAccess (.broken (ofUnix 110))) = _
    rw [again, ended]
    rfl
  have admitted : Runs.Each System.step
      (fun system op => system.FlushLosesNothing op ∧
        ∀ later, op.readOf firstPaste.seq (system.answer op) = some later →
          unix (ofUnix 108) ≤ later)
      ((System.opened (firstStore ∅ .idle)).step (.readFirst 108)) failing := by
    rw [first]
    refine ⟨⟨?_, ?_⟩, ⟨?_, ?_⟩, ⟨?_, ?_⟩, trivial⟩
    · rintro store env error _ isFlush
      cases isFlush
    · intro later noRead
      cases noRead
    · rintro store env error _ isFlush
      cases isFlush
    · intro later read
      rw [show ((System.opened (firstStore (firstRead 108) .idle)).step
        (.takeAccess false)).answer (.readFirst 109) = _ from
          answer_readFirst ∅ flushing (by decide)] at read
      cases read
      decide
    · change (((System.opened (firstStore ∅ flushing)).step
        (.readFirst 109)).FlushLosesNothing _)
      rw [again]
      rintro store env error isStore _ _ pending sweeping under seq time taken
      cases isStore
      cases under
      obtain ⟨rfl, rfl⟩ := eq_of_lookup_firstRead taken
      exact ⟨109, by decide, AList.lookup_insert _⟩
    · change ∀ later, none = some later → _
      intro later noRead
      cases noRead
  obtain ⟨last, lastReached, sameOptions, _⟩ := System.opened_run
    (show (firstStore (firstRead 109) .idle).db.Accounted from
      firstStored_accounted)
    (show ∀ op ∈ [Op.takeAccess true, .flushAccess (.calm (ofUnix 117))],
      op ≠ .shut by simp)
  have swept : (System.opened last).answer (.sweep (.calm (ofUnix 117))) =
      .swept ⟨1, 0, 0, 0, 0, 10⟩ none := by
    rw [← lastReached, ← idleReached, ← reached]
    decide +kernel
  have flushFailed : ((System.opened (firstStore (firstRead 108) .idle)).run
      [.takeAccess false, .readFirst 109]).answer
        (.flushAccess (.broken (ofUnix 110))) =
          .failed (.statement .beginFlush .environment) := by
    change ((System.opened (firstStore ∅ flushing)).step
      (.readFirst 109)).answer (.flushAccess (.broken (ofUnix 110))) = _
    rw [again]
    exact failed
  have ran : (System.opened (firstStore ∅ .idle)).run
      (.readFirst 108 :: failing) =
        .opened (firstStore (firstRead 109) .idle) := by
    rw [System.run_cons, first]
    exact idleReached
  have recent : cutoff (ofUnix 117) last.options.ttlAccess <
      unix (ofUnix 108) := by
    rw [sameOptions]
    decide
  refine ⟨_, _, last, reached, ?_, idleReached, lastReached, ?_⟩
  · exact (System.failed_flush_loses_nothing reached).1 false [.readFirst 109]
      (.broken (ofUnix 110)) _ rfl (by simp [Op.readFirst]) flushFailed
  · exact (System.failed_flush_loses_nothing run_createFirst).2
      (.calm (ofUnix 108)) (ascii "0") firstPaste (ascii "a") failing _
      [.flushAccess (.calm (ofUnix 117))] last (.calm (ofUnix 117)) _ _
      (answer_readFirst ∅ .idle (by decide)) (by simp [failing, Op.readFirst])
      admitted ran rfl (by simp) lastReached swept recent

/-- Without a second read the failing flush loses the access, and the next
sweep deletes a paste read four seconds ago. -/
theorem failed_flush_loses_paste :
    let start := System.closed .fresh none
    let flushing := createFirst ++ [.readFirst 108, .takeAccess false]
    let failed := flushing ++ [.flushAccess (.broken (ofUnix 110))]
    let sweeping := failed ++
      [.takeAccess true, .flushAccess (.calm (ofUnix 112))]
    (start.run flushing).answer (.flushAccess (.broken (ofUnix 110))) =
      .failed (.statement .beginFlush .environment) ∧
    ¬(start.run (flushing.take 3)).KeepsQueue (start.run failed) ∧
    (start.run sweeping).answer (.sweep (.calm (ofUnix 112))) =
      .swept ⟨0, 0, 0, 1, 0, 0⟩ none ∧
    cutoff (ofUnix 112) Options.brief.ttlAccess < 108 := by
  intro start flushing failed sweeping
  refine ⟨by decide +kernel, ?_, by decide +kernel, by decide⟩
  intro keeps
  have queued : (start.run (flushing.take 3)).queued 1 = some 108 := by
    decide +kernel
  have lost : (start.run failed).queued 1 = none := by decide +kernel
  obtain ⟨later, _, kept⟩ := keeps 1 108 queued
  cases lost.symm.trans kept

end Store
end Haste
