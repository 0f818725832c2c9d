import Haste.Store.Recency

/-!
# Calls in their parts

A `Get` reads the clock, then its row, and only then records its access.  A
`FlushAccess` takes the queue and then writes it back; the sweeper calls it, and
so does `Close`, which does not wait for the sweeper.  The parts of any number
of calls come in any order: two reads of a row may record their accesses in the
opposite order of their clocks, and two flushes may end in the opposite order of
their starts.  The queue keeps the access recorded last; the table keeps the
latest one.
-/

namespace Haste
namespace Store

open Go
open Foundation
open Foundation.Transaction

/-- How far a `Get` has come. -/
inductive Get
  /-- It has read the clock. -/
  | clocked (code : Bytes) (now : Int)
  /-- It has read the row with this number and not yet recorded the access. -/
  | served (seq : Nat) (now : Int)
  deriving DecidableEq, Repr

/-- An open store with the calls under way.  The number of a `FlushAccess` is how
many took the queue before it. -/
structure Reading where
  options : Options
  db : Database
  access : Access
  gets : Nat → Option Get
  /-- What a `FlushAccess` under way has taken. -/
  flushes : Nat → Option Access
  taken : Nat

/-- The parts of the calls on an open store. -/
inductive ReadOp
  /-- `now := time.Now()` -/
  | readClock (get : Nat) (code : Bytes) (now : Int)
  /-- The query, and the decompression of what it finds. -/
  | readRow (get : Nat) (env : Env)
  /-- `recordAccess`, after which the call returns. -/
  | record (get : Nat)
  /-- The start of a `FlushAccess`, which swaps the queue for an empty one. -/
  | takeAccess
  /-- The rest of a `FlushAccess`. -/
  | flushAccess (flush : Nat) (env : Env)
  | create (env : Env) (request : Request)
  /-- What a `Sweep` does once its `FlushAccess` has moved this many rows. -/
  | sweep (env : Env) (flushed : Int)

namespace Reading

/-- One step.  What does not apply to the state does nothing. -/
def step (state : Reading) : ReadOp → Reading
  | .readClock get code now =>
      match state.gets get with
      | none =>
          { state with
            gets := Function.update state.gets get (some (.clocked code now)) }
      | some _ => state
  | .readRow get env =>
      match state.gets get with
      | some (.clocked code now) =>
          match Store.get state.options { env with now } code state.db with
          | .ok (paste, _) =>
              { state with
                gets := Function.update state.gets get
                  (some (.served paste.seq now)) }
          | .error _ =>
              { state with gets := Function.update state.gets get none }
      | _ => state
  | .record get =>
      match state.gets get with
      | some (.served seq now) =>
          { state with
            access := state.access.insert seq (unix now)
            gets := Function.update state.gets get none }
      | _ => state
  | .takeAccess =>
      { state with
        access := ∅
        flushes := Function.update state.flushes state.taken (some state.access)
        taken := state.taken + 1 }
  | .flushAccess flush env =>
      match state.flushes flush with
      | some pending =>
          { state with
            db := (transact (flushTx env pending) state.db).2
            flushes := Function.update state.flushes flush none }
      | none => state
  | .create env request =>
      { state with db := (Store.create state.options env request state.db).2 }
  | .sweep env flushed =>
      { state with
        db := (transact (sweepTx state.options env flushed) state.db).2 }

/-- The access time a step records for a row. -/
def recordOf (seq : Nat) (state : Reading) : ReadOp → Option Int
  | .record get =>
      match state.gets get with
      | some (.served found now) =>
          if found = seq then some (unix now) else none
      | _ => none
  | _ => none

/-- The state after a run. -/
abbrev run (state : Reading) (ops : List ReadOp) : Reading :=
  Runs.run step state ops

/-! ## What a step does -/

/-- The ways a step ends. -/
inductive Effect (state : Reading) : ReadOp → Reading → Prop
  | nothing (op : ReadOp) (silent : ∀ seq, state.recordOf seq op = none) :
      Effect state op state
  | asked
      (op : ReadOp)
      (silent : ∀ seq, state.recordOf seq op = none)
      (gets : Nat → Option Get)
      (served : ∀ get seq now, gets get = some (.served seq now) →
        state.gets get = some (.served seq now) ∨
          ∃ row ∈ state.db.pastes.rows, row.seq = seq) :
      Effect state op { state with gets }
  | recorded
      (get found : Nat)
      (now : Int)
      (under : state.gets get = some (.served found now)) :
      Effect state (.record get)
        { state with
          access := state.access.insert found (unix now)
          gets := Function.update state.gets get none }
  | taken :
      Effect state .takeAccess
        { state with
          access := ∅
          flushes := Function.update state.flushes state.taken (some state.access)
          taken := state.taken + 1 }
  | unflushed
      (flush : Nat)
      (env : Env)
      (pending : Access)
      (under : state.flushes flush = some pending)
      (error : Error)
      (failed : (transact (flushTx env pending) state.db).1 = .error error) :
      Effect state (.flushAccess flush env)
        { state with flushes := Function.update state.flushes flush none }
  | flushed
      (flush : Nat)
      (env : Env)
      (pending : Access)
      (under : state.flushes flush = some pending) :
      Effect state (.flushAccess flush env)
        { state with
          db := state.db.touch pending.entries
          flushes := Function.update state.flushes flush none }
  | changed
      (op : ReadOp)
      (silent : ∀ seq, state.recordOf seq op = none)
      (next : Database)
      (accounted : next.Accounted)
      (change : Change (some state.options) state.db next) :
      Effect state op { state with db := next }

theorem readRow_effect (state : Reading) (get : Nat) (env : Env) :
    Effect state (.readRow get env) (state.step (.readRow get env)) := by
  have keeps : ∀ call,
      (∀ seq now, call = some (Get.served seq now) →
        ∃ row ∈ state.db.pastes.rows, row.seq = seq) →
      ∀ get' seq now,
        Function.update state.gets get call get' = some (.served seq now) →
        state.gets get' = some (.served seq now) ∨
          ∃ row ∈ state.db.pastes.rows, row.seq = seq := by
    intro call found get' seq now under
    rw [Function.update_apply] at under
    split at under
    · exact Or.inr (found seq now under)
    · exact Or.inl under
  simp only [step]
  split
  · split
    · rename_i paste _ read
      obtain ⟨row, present, _, _, rfl, _⟩ := get_eq_ok read
      refine .asked _ (fun _ => rfl) _ (keeps _ ?_)
      rintro seq now ⟨⟩
      exact ⟨row, present, rfl⟩
    · exact .asked _ (fun _ => rfl) _ (keeps _ (by simp))
  · exact .nothing _ fun _ => rfl

/-- The rest of a flush fails and changes nothing, or writes back all it has
taken. -/
theorem flushTx_cases (env : Env) (pending : Access) (db : Database) :
    (∃ error, transact (flushTx env pending) db = (.error error, db)) ∨
      transact (flushTx env pending) db =
        (.ok pending.entries.length, db.touch pending.entries) := by
  simp only [Prod.ext_iff]
  refine transact_of_ends (fun answer next =>
    (∃ error, answer = .error error ∧ next = db) ∨
      (answer = .ok (pending.entries.length : Int) ∧
        next = db.touch pending.entries)) ?_
  exact ends_flushTx (Or.inr ⟨rfl, rfl⟩)
    fun error _ => Or.inl ⟨error, rfl, rfl⟩

theorem flushAccess_effect (state : Reading) (flush : Nat) (env : Env) :
    Effect state (.flushAccess flush env)
      (state.step (.flushAccess flush env)) := by
  cases under : state.flushes flush with
  | none =>
      simp only [step, under]
      exact .nothing _ fun _ => rfl
  | some pending =>
      simp only [step, under]
      rcases flushTx_cases env pending state.db with ⟨error, failed⟩ | written
      · rw [failed]
        exact .unflushed flush env pending under error (congrArg Prod.fst failed)
      · rw [written]
        exact .flushed flush env pending under

theorem create_effect
    {state : Reading}
    (accounted : state.db.Accounted)
    (env : Env)
    (request : Request) :
    Effect state (.create env request) (state.step (.create env request)) := by
  simp only [step]
  rcases create_cases state.options env request accounted with
    ⟨error, ended, _⟩ | ⟨paste, next, ended, created⟩
  · rw [ended]
    exact .nothing _ fun _ => rfl
  · rw [ended]
    exact .changed _ (fun _ => rfl) next (created.accounted accounted)
      (.stored _ rfl _ _ _ created)

theorem sweep_effect
    {state : Reading}
    (accounted : state.db.Accounted)
    (env : Env)
    (flushed : Int) :
    Effect state (.sweep env flushed) (state.step (.sweep env flushed)) := by
  simp only [step]
  exact transact_of_ends
    (fun _ next => Effect state (.sweep env flushed) { state with db := next })
    (ends_sweepTx accounted
      (.changed _ (fun _ => rfl) _ (accounted.swept _ _) (.swept _ rfl _ rfl))
      fun _ _ => .nothing _ fun _ => rfl)

/-- Every step ends in one of the listed ways. -/
theorem step_effect
    {state : Reading}
    (accounted : state.db.Accounted)
    (op : ReadOp) :
    Effect state op (state.step op) := by
  cases op with
  | readClock get code now =>
      simp only [step]
      split
      · refine .asked _ (fun _ => rfl) _ fun get' seq now' under => Or.inl ?_
        rw [Function.update_apply] at under
        split at under
        · cases under
        · exact under
      · exact .nothing _ fun _ => rfl
  | readRow get env => exact state.readRow_effect get env
  | record get =>
      cases under : state.gets get with
      | none =>
          simp only [step, under]
          exact .nothing _ fun seq => by simp only [recordOf, under]
      | some call =>
          cases call with
          | clocked code now =>
              simp only [step, under]
              exact .nothing _ fun seq => by simp only [recordOf, under]
          | served found now =>
              simp only [step, under]
              exact .recorded get found now under
  | takeAccess => exact .taken
  | flushAccess flush env => exact state.flushAccess_effect flush env
  | create env request => exact create_effect accounted env request
  | sweep env flushed => exact sweep_effect accounted env flushed

theorem Effect.change
    {state next : Reading}
    {op : ReadOp}
    (effect : Effect state op next)
    (accounted : state.db.Accounted) :
    next.db.Accounted ∧
      Change (some state.options) state.db next.db := by
  cases effect with
  | flushed flush env pending under =>
      exact ⟨accounted.touch _, .touched _ rfl⟩
  | changed _ silent next accounted change => exact ⟨accounted, change⟩
  | _ => exact ⟨accounted, .unchanged rfl⟩

/-! ## No access time decreases -/

/-- What every state of a run keeps: exact accounting, numbers that the counter
has passed, and no flush with a number still to be given. -/
structure Sound (state : Reading) : Prop where
  accounted : state.db.Accounted
  numbered : state.db.Numbered
  served : ∀ get seq now, state.gets get = some (.served seq now) →
    seq ≤ state.db.pasteSeq
  untaken : ∀ flush, state.taken ≤ flush → state.flushes flush = none

theorem Sound.step
    {state : Reading}
    (sound : state.Sound)
    (op : ReadOp) :
    (state.step op).Sound := by
  have effect := step_effect sound.accounted op
  obtain ⟨accounted, change⟩ := effect.change sound.accounted
  have numbered := change.numbered sound.numbered
  have ended : ∀ flush other, state.taken ≤ other →
      Function.update state.flushes flush none other = none := by
    intro flush other untaken
    rw [Function.update_apply, sound.untaken other untaken, ite_self]
  generalize state.step op = next at effect accounted change numbered ⊢
  refine ⟨accounted, numbered, ?_, ?_⟩
  · intro get seq now under
    refine le_trans ?_ change.pasteSeq_le
    cases effect with
    | asked _ _ gets served =>
        rcases served get seq now under with before | ⟨row, present, same⟩
        · exact sound.served get seq now before
        · exact same ▸ sound.numbered row present
    | recorded recording found time isServed =>
        simp only [Function.update_apply] at under
        split at under
        · cases under
        · exact sound.served get seq now under
    | _ => exact sound.served get seq now under
  · intro flush untaken
    cases effect with
    | taken =>
        have above : state.taken < flush := untaken
        exact (Function.update_of_ne above.ne' _ _).trans
          (sound.untaken flush above.le)
    | unflushed | flushed => exact ended _ flush untaken
    | _ => exact sound.untaken flush untaken

/-- A flush that starts leaves those under way alone. -/
theorem Sound.flushes_takeAccess
    {state : Reading}
    (sound : state.Sound)
    {flush : Nat}
    {pending : Access}
    (under : state.flushes flush = some pending) :
    flush < state.taken ∧
      Function.update state.flushes state.taken (some state.access) flush =
        some pending := by
  have before : flush < state.taken := by
    by_contra after
    cases (sound.untaken flush (not_lt.mp after)).symm.trans under
  exact ⟨before, (Function.update_of_ne before.ne _ _).trans under⟩

theorem Sound.run
    {state : Reading}
    (sound : state.Sound)
    (ops : List ReadOp) :
    (state.run ops).Sound :=
  Runs.invariant_run_of_forall Sound (fun _ op sound => sound.step op) sound

theorem Sound.change_step
    {state : Reading}
    (sound : state.Sound)
    (op : ReadOp) :
    Change (some state.options) state.db (state.step op).db :=
  ((step_effect sound.accounted op).change sound.accounted).2

theorem Sound.counted_step
    {state : Reading}
    (sound : state.Sound)
    {seq : Nat}
    (counted : seq ≤ state.db.pasteSeq)
    (op : ReadOp) :
    seq ≤ (state.step op).db.pasteSeq :=
  counted.trans (sound.change_step op).pasteSeq_le

/-- Along every run no access time decreases. -/
theorem Sound.accessedAt_le
    {state : Reading}
    (sound : state.Sound)
    (ops : List ReadOp)
    {row later : Row}
    (present : row ∈ state.db.pastes.rows)
    (laterPresent : later ∈ (state.run ops).db.pastes.rows)
    (sameSeq : later.seq = row.seq) :
    row.accessedAt ≤ later.accessedAt := by
  refine (Runs.invariant_run_of_forall
    (fun state : Reading => state.Sound ∧
      row.seq ≤ state.db.pasteSeq ∧
      state.db.Written row.seq row.accessedAt) ?_
    ⟨sound, sound.numbered row present, ?_⟩).2.2 later laterPresent sameSeq
  · rintro state op ⟨sound, counted, written⟩
    exact ⟨sound.step op, sound.counted_step counted op,
      (sound.change_step op).written counted written⟩
  · intro old oldPresent same
    rw [Pastes.eq_of_seq_eq oldPresent present same]

/-! ## No read is lost -/

/-- No access is recorded in place of a later one that is queued. -/
def RecordsInOrder (state : Reading) (op : ReadOp) : Prop :=
  ∀ seq time queued, state.recordOf seq op = some time →
    state.access.lookup seq = some queued → queued ≤ time

/-- No flush ends before one that took the queue earlier, unless what that one
has taken of a row is no later than what the row has or now gets. -/
def FlushesInOrder (state : Reading) (op : ReadOp) : Prop :=
  ∀ flush env pending, op = .flushAccess flush env →
    state.flushes flush = some pending →
    ∀ earlier < flush, ∀ taken, state.flushes earlier = some taken →
      ∀ seq time, taken.lookup seq = some time →
        state.db.Written seq time ∨
          ∃ later, time ≤ later ∧ pending.lookup seq = some later

/-- No flush fails. -/
def FlushSucceeds (state : Reading) (op : ReadOp) : Prop :=
  ∀ flush env pending error, op = .flushAccess flush env →
    state.flushes flush = some pending →
    (transact (flushTx env pending) state.db).1 ≠ .error error

/-- An access at this time, or a later one, is queued, or taken by a flush under
way, or written back. -/
def Remembers (state : Reading) (seq : Nat) (time : Int) : Prop :=
  (∃ later, time ≤ later ∧ state.access.lookup seq = some later) ∨
    (∃ flush pending later, state.flushes flush = some pending ∧
      time ≤ later ∧ pending.lookup seq = some later) ∨
    state.db.Written seq time

/-- An access at this time, or a later one, is written back, or taken by the
flush with this number or one before it, and this flush is under way. -/
def Carries (flush : Nat) (state : Reading) (seq : Nat) (time : Int) : Prop :=
  (∃ own, state.flushes flush = some own ∧
    ∃ earlier ≤ flush, ∃ pending later, state.flushes earlier = some pending ∧
      time ≤ later ∧ pending.lookup seq = some later) ∨
    state.db.Written seq time

/-- A recorded access is in memory. -/
theorem Sound.remembers_of_record
    {state : Reading}
    (sound : state.Sound)
    {op : ReadOp}
    {seq : Nat}
    {time : Int}
    (records : state.recordOf seq op = some time) :
    seq ≤ state.db.pasteSeq ∧ (state.step op).Remembers seq time := by
  have effect := step_effect sound.accounted op
  generalize state.step op = next at effect ⊢
  cases effect with
  | nothing _ silent | asked _ silent | changed _ silent =>
      cases (silent seq).symm.trans records
  | recorded get found now under =>
      simp only [recordOf, under] at records
      split at records
      · rename_i same
        subst same
        cases records
        exact ⟨sound.served get found now under,
          Or.inl ⟨_, le_rfl, AList.lookup_insert _⟩⟩
      · cases records
  | taken | unflushed | flushed => cases records

/-- An access that is remembered stays so. -/
theorem Sound.remembers_step
    {state : Reading}
    (sound : state.Sound)
    {op : ReadOp}
    (succeeds : state.FlushSucceeds op)
    (inOrder : state.RecordsInOrder op)
    {seq : Nat}
    {time : Int}
    (counted : seq ≤ state.db.pasteSeq)
    (remembers : state.Remembers seq time) :
    (state.step op).Remembers seq time := by
  have effect := step_effect sound.accounted op
  have change := sound.change_step op
  generalize state.step op = next at effect change ⊢
  rcases remembers with ⟨later, le, queued⟩ |
    ⟨flush, pending, later, under, le, queued⟩ | written
  · cases effect with
    | recorded get found now served =>
        by_cases isFound : found = seq
        · subst isFound
          have inTime : later ≤ unix now :=
            inOrder found _ later (by simp only [recordOf, served, if_pos]) queued
          exact Or.inl ⟨_, le.trans inTime, AList.lookup_insert _⟩
        · exact Or.inl ⟨later, le,
            (AList.lookup_insert_ne (Ne.symm isFound)).trans queued⟩
    | taken =>
        exact Or.inr (Or.inl
          ⟨_, _, later, Function.update_self _ _ _, le, queued⟩)
    | _ => exact Or.inl ⟨later, le, queued⟩
  · cases effect with
    | taken =>
        exact Or.inr (Or.inl ⟨flush, pending, later,
          (sound.flushes_takeAccess under).2, le, queued⟩)
    | unflushed ended env _ isEnded error failed =>
        exact absurd failed (succeeds ended env _ error rfl isEnded)
    | flushed ended env taken isEnded =>
        by_cases same : flush = ended
        · subst same
          cases under.symm.trans isEnded
          exact Or.inr (Or.inr (state.db.written_touch queued le))
        · exact Or.inr (Or.inl ⟨flush, pending, later,
            (Function.update_of_ne same _ _).trans under, le, queued⟩)
    | _ => exact Or.inr (Or.inl ⟨flush, pending, later, under, le, queued⟩)
  · exact Or.inr (Or.inr (change.written counted written))

/-- What is remembered when a flush takes the queue, it or one before it
carries. -/
theorem Sound.carries_of_remembers
    {state : Reading}
    (sound : state.Sound)
    {seq : Nat}
    {time : Int}
    (remembers : state.Remembers seq time) :
    (state.step .takeAccess).Carries state.taken seq time := by
  have isUnder : (state.step .takeAccess).flushes state.taken =
      some state.access := Function.update_self _ _ _
  rcases remembers with ⟨later, le, queued⟩ |
    ⟨flush, pending, later, under, le, queued⟩ | written
  · exact Or.inl ⟨_, isUnder, _, le_rfl, _, later, isUnder, le, queued⟩
  · obtain ⟨before, kept⟩ := sound.flushes_takeAccess under
    exact Or.inl
      ⟨_, isUnder, flush, before.le, pending, later, kept, le, queued⟩
  · exact Or.inr written

/-- What a flush or one before it carries is written back when it ends. -/
theorem Sound.carries_step
    {state : Reading}
    (sound : state.Sound)
    {op : ReadOp}
    (succeeds : state.FlushSucceeds op)
    (inOrder : state.FlushesInOrder op)
    {flush : Nat}
    {seq : Nat}
    {time : Int}
    (counted : seq ≤ state.db.pasteSeq)
    (carries : state.Carries flush seq time) :
    (state.step op).Carries flush seq time := by
  have effect := step_effect sound.accounted op
  have change := sound.change_step op
  generalize state.step op = next at effect change ⊢
  rcases carries with
    ⟨own, isUnder, earlier, le, pending, later, under, leLater, queued⟩ | written
  · cases effect with
    | taken =>
        exact Or.inl ⟨own, (sound.flushes_takeAccess isUnder).2, earlier, le,
          pending, later, (sound.flushes_takeAccess under).2, leLater, queued⟩
    | unflushed ended env _ isEnded error failed =>
        exact absurd failed (succeeds ended env _ error rfl isEnded)
    | flushed ended env taken isEnded =>
        by_cases isHolder : earlier = ended
        · subst isHolder
          cases under.symm.trans isEnded
          exact Or.inr (state.db.written_touch queued leLater)
        · by_cases isFlush : flush = ended
          · subst isFlush
            have before := lt_of_le_of_ne le isHolder
            -- the flush ends before the one that holds the access
            rcases inOrder flush env taken rfl isEnded earlier before pending under
              seq later queued with written | ⟨latest, leLatest, taken⟩
            · refine Or.inr (change.written counted ?_)
              exact fun row present same =>
                leLater.trans (written row present same)
            · exact Or.inr
                (state.db.written_touch taken (leLater.trans leLatest))
          · exact Or.inl ⟨own, (Function.update_of_ne isFlush _ _).trans isUnder,
              earlier, le, pending, later,
              (Function.update_of_ne isHolder _ _).trans under, leLater, queued⟩
    | _ =>
        exact Or.inl
          ⟨own, isUnder, earlier, le, pending, later, under, leLater, queued⟩
  · exact Or.inr (change.written counted written)

/-- The steps of a run of which no read is lost. -/
structure LosesNoRead (state : Reading) (op : ReadOp) : Prop where
  flushSucceeds : state.FlushSucceeds op
  recordsInOrder : state.RecordsInOrder op
  flushesInOrder : state.FlushesInOrder op

theorem Sound.remembers_run
    {state : Reading}
    (sound : state.Sound)
    {ops : List ReadOp}
    (admitted : Runs.Each Reading.step LosesNoRead state ops)
    {seq : Nat}
    {time : Int}
    (counted : seq ≤ state.db.pasteSeq)
    (remembers : state.Remembers seq time) :
    (state.run ops).Sound ∧ seq ≤ (state.run ops).db.pasteSeq ∧
      (state.run ops).Remembers seq time := by
  refine Runs.invariant_run
    (fun state : Reading => state.Sound ∧ seq ≤ state.db.pasteSeq ∧
      state.Remembers seq time) ?_ ⟨sound, counted, remembers⟩ admitted
  rintro state op ⟨sound, counted, remembers⟩ admitted
  exact ⟨sound.step op, sound.counted_step counted op,
    sound.remembers_step admitted.flushSucceeds admitted.recordsInOrder counted
      remembers⟩

theorem Sound.carries_run
    {state : Reading}
    (sound : state.Sound)
    {ops : List ReadOp}
    (admitted : Runs.Each Reading.step LosesNoRead state ops)
    {flush : Nat}
    {seq : Nat}
    {time : Int}
    (counted : seq ≤ state.db.pasteSeq)
    (carries : state.Carries flush seq time) :
    (state.run ops).Carries flush seq time := by
  have kept := Runs.invariant_run
    (fun state : Reading => state.Sound ∧ seq ≤ state.db.pasteSeq ∧
      state.Carries flush seq time)
    (fun state op kept admitted => ⟨kept.1.step op, kept.1.counted_step kept.2.1 op,
      kept.1.carries_step admitted.flushSucceeds admitted.flushesInOrder kept.2.1
        kept.2.2⟩)
    ⟨sound, counted, carries⟩ admitted
  exact kept.2.2

/-- The rest of a flush ends it. -/
theorem step_flushAccess_flushes
    (state : Reading)
    (flush : Nat)
    (env : Env) :
    (state.step (.flushAccess flush env)).flushes flush = none := by
  simp only [step]
  split
  · exact Function.update_self _ _ _
  · assumption

/-- What a flush carries is written back once it has ended. -/
theorem Carries.written
    {state : Reading}
    {flush : Nat}
    {seq : Nat}
    {time : Int}
    (carries : state.Carries flush seq time)
    (ended : state.flushes flush = none) :
    state.db.Written seq time := by
  rcases carries with ⟨own, isUnder, _⟩ | written
  · cases ended.symm.trans isUnder
  · exact written

/-- The first flush that takes the queue with an access remembered has, once it
has ended, written the access back. -/
theorem Sound.written_of_flushed
    {state : Reading}
    (sound : state.Sound)
    {seq : Nat}
    {time : Int}
    (counted : seq ≤ state.db.pasteSeq)
    (remembers : state.Remembers seq time)
    {between : List ReadOp}
    {env : Env}
    (admitted : Runs.Each Reading.step LosesNoRead state
      (.takeAccess :: between ++ [.flushAccess state.taken env])) :
    (state.run (.takeAccess :: between ++
      [.flushAccess state.taken env])).db.Written seq time := by
  have carries := (sound.step .takeAccess).carries_run admitted.2
    (sound.counted_step counted _) (sound.carries_of_remembers remembers)
  have ended : (state.run (.takeAccess :: between ++
      [.flushAccess state.taken env])).flushes state.taken = none := by
    simp only [Reading.run, List.cons_append, Runs.run_append, Runs.run_cons,
      Runs.run_nil]
    exact step_flushAccess_flushes _ _ _
  exact Carries.written carries ended

end Reading

/-! ## The parts of an open store's calls -/

/-- What the flush under way has taken. -/
def Sweeper.pending : Sweeper → Option Access
  | .flushing pending _ => some pending
  | _ => none

namespace OpenStore

/-- An open store with no call under way but the flush of its sweeper. -/
def inParts (store : OpenStore) (flush taken : Nat) : Reading where
  options := store.options
  db := store.db
  access := store.access
  gets := fun _ => none
  flushes := Function.update (fun _ => none) flush store.sweeper.pending
  taken := taken

/-- An open store, with the flush of its sweeper as the first. -/
abbrev reading (store : OpenStore) : Reading := store.inParts 0 1

variable (store : OpenStore) (flush taken : Nat)

theorem get_inParts (env : Env) (code : Bytes) :
    (store.inParts flush taken).run
        [.readClock 0 code env.now, .readRow 0 env, .record 0] =
      (store.get env code).2.inParts flush taken := by
  obtain ⟨now, admission, fails⟩ := env
  cases read : Store.get store.options ⟨now, admission, fails⟩ code store.db <;>
    simp [inParts, OpenStore.get, Reading.step, recordAccess, read]

theorem flushAccess_inParts
    {pending : Access}
    {sweeping : Bool}
    (under : store.sweeper = .flushing pending sweeping)
    (env : Env) :
    (store.inParts flush taken).step (.flushAccess flush env) =
      (store.flushAccess env).2.inParts flush taken := by
  simp only [inParts, Reading.step, under, Sweeper.pending, Function.update_self,
    flushAccess]
  rcases Reading.flushTx_cases env pending store.db with ⟨error, failed⟩ | written
  · simp [failed, afterFlush]
  · cases sweeping <;> simp [written, afterFlush]

theorem sweep_inParts
    {flushed : Int}
    (under : store.sweeper = .sweeping flushed)
    (env : Env) :
    (store.inParts flush taken).step (.sweep env flushed) =
      (store.sweep env).2.inParts flush taken := by
  simp only [inParts, Reading.step, under, Sweeper.pending, sweep]
  cases transact (sweepTx store.options env flushed) store.db with
  | mk answer db => cases answer <;> rfl

/-- A step of an open store is a run of the parts of its calls. -/
theorem step_inParts
    {next : OpenStore}
    {op : Op}
    (stepped : (System.opened store).step op = .opened next) :
    ∃ ops flush' taken',
      (store.inParts flush taken).run ops = next.inParts flush' taken' := by
  cases op with
  | openFile options stopped =>
      cases stepped
      exact ⟨[], flush, taken, rfl⟩
  | shut => cases stepped
  | create env request =>
      cases stepped
      refine ⟨[.create env request], flush, taken, ?_⟩
      simp only [Reading.run, Runs.run_cons, Runs.run_nil, inParts, create,
        Reading.step]
      cases Store.create store.options env request store.db with
      | mk answer db => cases answer <;> rfl
  | get env code =>
      cases stepped
      exact ⟨_, flush, taken, store.get_inParts flush taken env code⟩
  | metadata env code =>
      cases stepped
      refine ⟨[], flush, taken, ?_⟩
      simp only [metadata]
      split <;> rfl
  | takeAccess sweeping =>
      cases stepped
      simp only [takeAccess]
      split
      · rename_i idle
        refine ⟨[.takeAccess], taken, taken + 1, ?_⟩
        simp [Reading.run, inParts, Reading.step, idle, Sweeper.pending]
      · exact ⟨[], flush, taken, rfl⟩
  | flushAccess env =>
      cases stepped
      cases under : store.sweeper with
      | flushing pending sweeping =>
          exact ⟨[.flushAccess flush env], flush, taken,
            store.flushAccess_inParts flush taken under env⟩
      | _ =>
          refine ⟨[], flush, taken, ?_⟩
          simp only [flushAccess, under]
          rfl
  | sweep env =>
      cases stepped
      cases under : store.sweeper with
      | sweeping flushed =>
          exact ⟨[.sweep env flushed], flush, taken,
            store.sweep_inParts flush taken under env⟩
      | _ =>
          refine ⟨[], flush, taken, ?_⟩
          simp only [sweep, under]
          rfl

/-- As long as it stays open, what the store's machine reaches in whole calls, it
reaches in their parts. -/
theorem run_inParts
    {store last : OpenStore}
    (accounted : store.db.Accounted)
    {ops : List Op}
    (running : ∀ op ∈ ops, op ≠ .shut)
    (reached : (System.opened store).run ops = .opened last)
    (flush taken : Nat) :
    ∃ parts flush' taken',
      (store.inParts flush taken).run parts = last.inParts flush' taken' := by
  induction ops generalizing store flush taken with
  | nil =>
      cases reached
      exact ⟨[], flush, taken, rfl⟩
  | cons op rest inductionHypothesis =>
      obtain ⟨first, restRunning⟩ := List.forall_mem_cons.mp running
      obtain ⟨next, stepped, _, nextAccounted⟩ :=
        System.opened_step accounted first
      rw [System.run_cons, stepped] at reached
      obtain ⟨parts, flush', taken', ran⟩ := store.step_inParts flush taken stepped
      obtain ⟨others, flush'', taken'', lastRan⟩ :=
        inductionHypothesis nextAccounted restRunning reached flush' taken'
      refine ⟨parts ++ others, flush'', taken'', ?_⟩
      exact (Runs.run_append _ _ _ _).trans
        ((congrArg (Runs.run Reading.step · others) ran).trans lastRan)

end OpenStore

theorem Reading.sound_reading
    {store : OpenStore}
    (accounted : store.db.Accounted)
    (numbered : store.db.Numbered) :
    store.reading.Sound where
  accounted := accounted
  numbered := numbered
  served := fun _ _ _ under => by cases under
  untaken := by
    intro flush positive
    have nonzero : flush ≠ 0 := Nat.one_le_iff_ne_zero.mp positive
    simp [OpenStore.inParts, nonzero]

/-- From every state a run from a new file reaches, however `Get`s, flushes, also
several at once, and other calls go on from there, no access time ever
decreases.  If in a run no flush fails, no access is recorded in place of a later
one that is queued, and no flush ends before an earlier one that still holds a
later access of a row, then the first flush that takes the queue after a `Get`
has returned leaves the row, if it is still there, accessed no earlier than the
clock of the `Get`. -/
theorem reads_reach_table
    {before : List Op}
    {store : OpenStore}
    (reached : (System.closed .fresh none).run before = .opened store) :
    (∀ ops more,
      ∀ row ∈ (store.reading.run ops).db.pastes.rows,
      ∀ later ∈ (store.reading.run (ops ++ more)).db.pastes.rows,
        later.seq = row.seq → row.accessedAt ≤ later.accessedAt) ∧
    ∀ ops read rest between env seq time,
      let calls := ops ++ read :: rest
      let flush := (store.reading.run calls).taken
      let whole := calls ++ .takeAccess :: between ++ [.flushAccess flush env]
      Runs.Each Reading.step Reading.LosesNoRead store.reading whole →
      (store.reading.run ops).recordOf seq read = some time →
      (store.reading.run whole).db.Written seq time := by
  have accounted : store.db.Accounted :=
    System.accounted_of_run (System.sound_closed .fresh none) reached
  have numbered := System.numbered_run before
  rw [reached] at numbered
  have sound := Reading.sound_reading accounted numbered
  constructor
  · intro ops more row present later laterPresent sameSeq
    rw [Reading.run, Runs.run_append] at laterPresent
    exact (sound.run ops).accessedAt_le more present laterPresent sameSeq
  · intro ops read rest between env seq time calls flush whole admitted records
    have readSound := sound.run ops
    obtain ⟨counted, remembers⟩ := readSound.remembers_of_record records
    obtain ⟨callsAdmitted, flushAdmitted⟩ := Runs.each_append.mp
      (show Runs.Each Reading.step Reading.LosesNoRead store.reading
        (calls ++ (.takeAccess :: between ++ [.flushAccess flush env])) from
        List.append_assoc _ _ _ ▸ admitted)
    obtain ⟨lastSound, lastCounted, remembered⟩ :=
      (readSound.step read).remembers_run (Runs.each_append.mp callsAdmitted).2.2
        (readSound.counted_step counted read) remembers
    have split : ((store.reading.run ops).step read).run rest =
        store.reading.run calls := by
      simp only [calls, Reading.run, Runs.run_append, Runs.run_cons]
    rw [split] at lastSound lastCounted remembered
    have written := lastSound.written_of_flushed lastCounted remembered
      flushAdmitted
    rwa [Reading.run, ← Runs.run_append, ← List.append_assoc] at written

/-- A `Get` of the first paste, up to the recording of its access. -/
def readFirstRow (get : Nat) (seconds : Int) : List ReadOp :=
  [.readClock get (ascii "0") (ofUnix seconds),
    .readRow get (.calm (ofUnix seconds))]

/-- The state in which the first paste was just created. -/
def firstReading : Reading := (firstStore ∅ .idle).reading

/-- The rest of a flush, at 110 seconds and without a failure. -/
def flushCalm (flush : Nat) : ReadOp := .flushAccess flush (.calm (ofUnix 110))

theorem Reading.step_readClock
    (state : Reading)
    (get : Nat)
    (code : Bytes)
    (now : Int) :
    ∃ gets, state.step (.readClock get code now) = { state with gets } := by
  simp only [step]
  split <;> exact ⟨_, rfl⟩

theorem Reading.step_readRow (state : Reading) (get : Nat) (env : Env) :
    ∃ gets, state.step (.readRow get env) = { state with gets } := by
  simp only [step]
  split
  · split <;> exact ⟨_, rfl⟩
  · exact ⟨_, rfl⟩

theorem run_readFirstRow (get : Nat) (seconds : Int) :
    ∃ gets, firstReading.run (readFirstRow get seconds) =
      { firstReading with gets } := by
  obtain ⟨clocked, isClocked⟩ :=
    firstReading.step_readClock get (ascii "0") (ofUnix seconds)
  obtain ⟨gets, isServed⟩ := Reading.step_readRow
    { firstReading with gets := clocked } get (.calm (ofUnix seconds))
  refine ⟨gets, ?_⟩
  rw [Reading.run, readFirstRow, Runs.run_cons, isClocked, Runs.run_cons, isServed,
    Runs.run_nil]

/-- The first paste read at 108 seconds. -/
theorem run_recordFirst :
    ∃ gets, firstReading.run (readFirstRow 0 108 ++ [.record 0]) =
      { firstReading with access := firstRead 108, gets } := by
  obtain ⟨gets, ran⟩ := run_readFirstRow 0 108
  have served : (firstReading.run (readFirstRow 0 108)).gets 0 =
      some (.served 1 (ofUnix 108)) := by
    decide +kernel
  have isServed : gets 0 = some (.served 1 (ofUnix 108)) := by
    rwa [ran] at served
  refine ⟨Function.update gets 0 none, ?_⟩
  rw [Reading.run, Runs.run_append, Runs.run_cons, Runs.run_nil, ← Reading.run, ran]
  simp only [Reading.step, isServed]
  rfl

/-- A step that neither records an access nor ends a flush. -/
def ReadOp.isQuiet : ReadOp → Bool
  | .record _ | .flushAccess _ _ => false
  | _ => true

namespace Reading

theorem losesNoRead_of_quiet
    {op : ReadOp}
    (quiet : op.isQuiet = true)
    (state : Reading) :
    state.LosesNoRead op := by
  cases op with
  | record get | flushAccess flush env => cases quiet
  | _ => exact ⟨nofun, nofun, nofun⟩

theorem flushSucceeds_flushCalm (state : Reading) (flush : Nat) :
    state.FlushSucceeds (flushCalm flush) := by
  rintro _ env pending error ⟨⟩ _
  refine transact_of_ends (fun answer _ => answer ≠ .error error) ?_
  refine ends_flushTx nofun fun other interrupted => ?_
  exact absurd interrupted (Env.clean_calm _).not_interrupted

theorem losesNoRead_flushCalm
    {state : Reading}
    {flush : Nat}
    (first : ∀ earlier < flush, state.flushes earlier = none) :
    state.LosesNoRead (flushCalm flush) where
  flushSucceeds := state.flushSucceeds_flushCalm flush
  recordsInOrder := nofun
  flushesInOrder := by
    rintro _ env pending ⟨⟩ _ earlier before taken under
    cases (first earlier before).symm.trans under

end Reading

theorem readFirstRow_losesNoRead :
    Runs.Each Reading.step Reading.LosesNoRead firstReading
      (readFirstRow 0 108 ++ [.record 0]) := by
  refine Runs.each_append.mpr ⟨Runs.each_of_forall_mem ?_, ⟨?_, ?_, ?_⟩, trivial⟩
  · simp only [readFirstRow, List.mem_cons, List.not_mem_nil, or_false]
    rintro op (rfl | rfl) state
    · exact Reading.losesNoRead_of_quiet rfl state
    · exact Reading.losesNoRead_of_quiet rfl state
  · nofun
  · intro seq time queued _ isQueued
    obtain ⟨gets, ran⟩ := run_readFirstRow 0 108
    rw [← Reading.run, ran] at isQueued
    cases isQueued
  · nofun

/-- A `Get` at 108 seconds is written back by the second of two flushes that
overlap and end in the order of their starts. -/
theorem reads_reach_table_first :
    (firstReading.run (readFirstRow 0 108 ++ .record 0 :: [.takeAccess] ++
      .takeAccess :: [flushCalm 1] ++ [flushCalm 2])).db.Written 1 108 := by
  obtain ⟨gets, recorded⟩ := run_recordFirst
  have taken : (firstReading.run
      (readFirstRow 0 108 ++ .record 0 :: [.takeAccess])).taken = 2 := by
    rw [List.append_cons, Reading.run, Runs.run_append]
    change ((firstReading.run (readFirstRow 0 108 ++ [.record 0])).run _).taken = 2
    rw [recorded]
    rfl
  have admitted : Runs.Each Reading.step Reading.LosesNoRead firstReading
      (readFirstRow 0 108 ++ [.record 0] ++
        [.takeAccess, .takeAccess, flushCalm 1, flushCalm 2]) := by
    refine Runs.each_append.mpr ⟨readFirstRow_losesNoRead, ?_⟩
    rw [← Reading.run, recorded]
    refine ⟨Reading.losesNoRead_of_quiet rfl _,
      Reading.losesNoRead_of_quiet rfl _,
      Reading.losesNoRead_flushCalm ?_, Reading.losesNoRead_flushCalm ?_, trivial⟩
    · intro earlier before
      obtain rfl : earlier = 0 := by omega
      rfl
    · intro earlier before
      obtain rfl | rfl : earlier = 0 ∨ earlier = 1 := by omega
      · rfl
      · exact Reading.step_flushAccess_flushes _ _ _
  have written := (reads_reach_table run_createFirst).2 (readFirstRow 0 108)
    (.record 0) [.takeAccess] [flushCalm 1] (.calm (ofUnix 110)) 1 108
  simp only at written
  unfold firstReading at taken admitted ⊢
  rw [taken] at written
  exact written (by simpa [flushCalm] using admitted) (by decide +kernel)

/-- Two `Get`s at 108 and 109 seconds record their accesses in the opposite
order: the flush leaves the earlier one.  A flush that has taken the access of a
`Get` at 108 seconds is overtaken by another, which leaves the access time at
which the paste was created.  None of the flushes fails. -/
theorem reads_missed :
    let reads := readFirstRow 0 108 ++ readFirstRow 1 109 ++
      [.record 1, .record 0]
    let read := readFirstRow 0 108 ++ [.record 0]
    ((firstReading.run (reads.take 4)).recordOf 1 (.record 1) = some 109 ∧
      ¬((firstReading.run (reads ++ [.takeAccess, flushCalm 1])).db.Written
        1 109)) ∧
    (firstReading.run (readFirstRow 0 108)).recordOf 1 (.record 0) = some 108 ∧
      ¬((firstReading.run (read ++
        [.takeAccess, .takeAccess, flushCalm 2])).db.Written 1 108) ∧
    ∀ (state : Reading) flush, state.FlushSucceeds (flushCalm flush) := by
  have unwritten : ∀ (db : Database) (time : Int),
      (∃ row ∈ db.pastes.rows, row.seq = 1 ∧ row.accessedAt < time) →
      ¬db.Written 1 time := by
    rintro db time ⟨row, present, isFirst, earlier⟩ written
    exact absurd (written row present isFirst) (not_le.mpr earlier)
  exact ⟨⟨by decide +kernel, unwritten _ _ (by decide +kernel)⟩,
    by decide +kernel, unwritten _ _ (by decide +kernel),
    Reading.flushSucceeds_flushCalm⟩

end Store
end Haste
