import Haste.Store.Recency
import Haste.Store.WriteOnce

/-!
# Serving a row

The rows of a table that was only ever written with one library all have a
well-formed code and a body that can be decoded, of the size recorded.  Where
nothing fails, a read of such a row succeeds exactly when the condition of the
queries holds of it, and `Meta` answers the paste that `Get` does.
-/

namespace Haste
namespace Store

open Go
open Foundation

/-- The row has a well-formed code, and its body can be decoded. -/
def Row.Readable (zstd : Compress.Gozstd) (row : Row) : Prop :=
  Id.valid row.code = true ∧
    ∀ codec : Compress.Codec, codec.zstd = zstd →
      ∃ content, codec.decompress row.body row.codec row.rawBytes = .ok content

/-- Every row can be read. -/
def Database.Readable (zstd : Compress.Gozstd) (db : Database) : Prop :=
  ∀ row ∈ db.pastes.rows, row.Readable zstd

theorem Created.readable
    {options : Options}
    {env : Env}
    {request : Request}
    {db next : Database}
    {paste : Paste}
    (created : Created options env request db paste next)
    (inverts : options.codec.zstd.Inverts) :
    (paste.row (options.codec.compress request.content).1
      (options.codec.compress request.content).2).Readable
        options.codec.zstd := by
  refine ⟨created.wellFormed, fun codec sameLibrary => ⟨request.content, ?_⟩⟩
  have size : paste.rawBytes = request.content.length := by
    rw [created.metadata]
    rfl
  simp only [Paste.row, size]
  exact Compress.Codec.decompress_compress inverts sameLibrary _

theorem Change.readable
    {zstd : Compress.Gozstd}
    (inverts : zstd.Inverts)
    {settings : Option Options}
    (sameLibrary : ∀ options, settings = some options →
      options.codec.zstd = zstd)
    {db next : Database}
    (change : Change settings db next)
    (readable : db.Readable zstd) :
    next.Readable zstd := by
  intro row present
  rcases change.row_cases present with
    ⟨old, oldPresent, same, _⟩ | ⟨options, _, _, _, isCurrent, created, rfl⟩
  · rw [same]
    exact readable old oldPresent
  · obtain rfl := sameLibrary options isCurrent
    exact created.readable inverts

namespace System

/-- As long as a new file is only opened with one library, every row can be
read. -/
theorem readable_of_run
    {zstd : Compress.Gozstd}
    (inverts : zstd.Inverts)
    {ops : List Op}
    (opens : ∀ options stopped, .openFile options stopped ∈ ops →
      options.codec.zstd = zstd)
    {store : OpenStore}
    (reached : (System.closed .fresh none).run ops = .opened store) :
    store.options.codec.zstd = zstd ∧ store.db.Readable zstd := by
  obtain ⟨readable, library⟩ := invariant_run_of_family (Database.Readable zstd)
    (fun _ _ _ sameLibrary change => change.readable inverts sameLibrary)
    (System.sound_closed .fresh none)
    (fun _ noOptions => by cases noOptions)
    (fun _ present => absurd present List.not_mem_nil) opens
  rw [reached] at readable library
  exact ⟨library _ rfl, readable⟩

/-- In a store that stays open every row can still be read. -/
theorem readable_run
    {store : OpenStore}
    (accounted : store.db.Accounted)
    (inverts : store.options.codec.zstd.Inverts)
    (readable : store.db.Readable store.options.codec.zstd)
    {ops : List Op}
    (running : ∀ op ∈ ops, op ≠ .shut)
    {last : OpenStore}
    (reached : (System.opened store).run ops = .opened last) :
    last.options = store.options ∧
      last.db.Readable store.options.codec.zstd := by
  refine invariant_run_opened
    (fun current => current.options = store.options ∧
      current.db.Readable store.options.codec.zstd) ?_
    accounted ⟨rfl, readable⟩ running
    (Runs.each_of_forall fun _ _ => trivial) reached
  rintro current op next ended change _ ⟨sameOptions, readable⟩
  refine ⟨ended.options_eq.trans sameOptions, change.readable inverts ?_ readable⟩
  rintro options isCurrent
  rw [← Option.some.inj isCurrent, sameOptions]

end System

section Reading

variable
  {store : OpenStore}
  {row : Row}
  (present : row ∈ store.db.pastes.rows)
  (readable : row.Readable store.options.codec.zstd)
  {now : Env}
  (clean : now.Clean)
include present readable clean

theorem Row.Readable.got_iff_visible :
    (∃ found content, (System.opened store).answer (.get now row.code) =
      .got found content) ↔ visible store.options now.now row = true := by
  constructor
  · rintro ⟨found, content, answered⟩
    obtain ⟨_, same, read⟩ := System.got_of_answer answered
    cases same
    obtain ⟨other, otherPresent, sameCode, isVisible, _⟩ := get_eq_ok read
    rwa [← Pastes.eq_of_code_eq otherPresent present sameCode]
  · intro isVisible
    obtain ⟨content, decoded⟩ := readable.2 store.options.codec rfl
    refine ⟨row.paste row.body.length, content, ?_⟩
    rw [System.answer_get, Store.get, readRow_eq_of_visible readable.1
      (clean _ _) present rfl isVisible, decoded]

theorem Row.Readable.described_iff_visible :
    (∃ found, (System.opened store).answer (.metadata now row.code) =
      .described found) ↔ visible store.options now.now row = true := by
  constructor
  · rintro ⟨found, answered⟩
    obtain ⟨_, same, read⟩ := System.described_of_answer answered
    cases same
    obtain ⟨other, otherPresent, sameCode, isVisible, _⟩ := metadata_eq_ok read
    rwa [← Pastes.eq_of_code_eq otherPresent present sameCode]
  · intro isVisible
    refine ⟨row.paste row.bytes, ?_⟩
    rw [System.answer_metadata, Store.metadata, readRow_eq_of_visible readable.1
      (clean _ _) present rfl isVisible]

end Reading

/-! ## `Meta` beside `Get` -/

/-- The recorded size of every row is that of its body. -/
def Database.Measured (db : Database) : Prop :=
  ∀ row ∈ db.pastes.rows, row.bytes = row.body.length

/-- `Create` records the size of the body it inserts, and no other change
touches either. -/
theorem Change.measured
    {settings : Option Options}
    {db next : Database}
    (change : Change settings db next)
    (measured : db.Measured) :
    next.Measured := by
  intro row present
  rcases change.row_cases present with
    ⟨old, oldPresent, same, _⟩ | ⟨_, _, _, _, _, _, rfl⟩
  · rw [same]
    exact measured old oldPresent
  · rfl

theorem System.measured_of_run
    {ops : List Op}
    {store : OpenStore}
    (reached : (System.closed .fresh none).run ops = .opened store) :
    store.db.Measured := by
  have measured := invariant_run_of_change Database.Measured
    (fun _ _ _ change => change.measured)
    (System.sound_closed .fresh none)
    (fun _ present => absurd present List.not_mem_nil) ops
  rwa [reached] at measured

section Agreement

variable
  {options : Options}
  {db : Database}
  {env : Env}
  {code : Bytes}

/-- A query that fails answers the cause under its own name. -/
theorem reads_fail
    (wellFormed : Id.valid code = true)
    (pasteFails : env.fails db .readPaste = true)
    (metadataFails : env.fails db .readMetadata = true) :
    get options env code db = .error (.statement .readPaste .environment) ∧
      metadata options env code db =
        .error (.statement .readMetadata .environment) := by
  constructor
  · simp [get, readRow, wellFormed, pasteFails]
  · simp [metadata, readRow, wellFormed, metadataFails]

/-- On measured rows that can be decoded, `Meta` is `Get` without the content. -/
theorem metadata_eq_map_get
    (readable : db.Readable options.codec.zstd)
    (measured : db.Measured)
    (together : env.fails db .readMetadata = env.fails db .readPaste)
    (answered : Id.valid code = false ∨ env.fails db .readPaste = false) :
    metadata options env code db =
      (get options env code db).map Prod.fst := by
  unfold metadata get readRow
  by_cases malformed : Id.valid code = false
  · rw [if_pos malformed, if_pos malformed]
    rfl
  · have works := answered.resolve_left malformed
    rw [if_neg malformed, if_neg malformed, together, works]
    cases selected : select options env.now code db with
    | none => rfl
    | some row =>
        have present := ((select_eq_some_iff row).mp selected).1
        obtain ⟨content, decoded⟩ :=
          (readable row present).2 options.codec rfl
        simp [decoded, measured row present, Except.map]

end Agreement

/-- In every state that a new file reaches under one library, whatever else its
options were: at any instant and for any code, `Meta` answers what `Get` does on
the same snapshot, the paste in all its fields or the same error; only a query
that the database fails bears its own name. -/
theorem metadata_agrees_with_get
    {zstd : Compress.Gozstd}
    (inverts : zstd.Inverts)
    {ops : List Op}
    (opens : ∀ options stopped, .openFile options stopped ∈ ops →
      options.codec.zstd = zstd)
    {store : OpenStore}
    (reached : (System.closed .fresh none).run ops = .opened store)
    {env : Env}
    (together :
      env.fails store.db .readMetadata = env.fails store.db .readPaste)
    (code : Bytes) :
    (Id.valid code = false ∨ env.fails store.db .readPaste = false →
      metadata store.options env code store.db =
        (get store.options env code store.db).map Prod.fst) ∧
    (Id.valid code = true → env.fails store.db .readPaste = true →
      get store.options env code store.db =
          .error (.statement .readPaste .environment) ∧
        metadata store.options env code store.db =
          .error (.statement .readMetadata .environment)) := by
  obtain ⟨rfl, readable⟩ := System.readable_of_run inverts opens reached
  exact ⟨metadata_eq_map_get readable (System.measured_of_run reached) together,
    fun wellFormed fails => reads_fail wellFormed fails (together.trans fails)⟩

/-- A stored paste seen both ways. -/
theorem metadata_agrees_with_get_small :
    ∃ store,
      (System.closed .fresh none).run
        [.openFile Options.small none,
          .create (.calm 5000000001) ⟨ascii "a", ascii "go", [], hour⟩] =
        .opened store ∧
      metadata store.options (.calm 6000000000) (ascii "0") store.db =
        (get store.options (.calm 6000000000) (ascii "0") store.db).map
          Prod.fst := by
  obtain ⟨store, reached⟩ : ∃ store, (System.closed .fresh none).run
      [.openFile Options.small none,
        .create (.calm 5000000001) ⟨ascii "a", ascii "go", [], hour⟩] =
      .opened store := ⟨_, rfl⟩
  refine ⟨store, reached, ?_⟩
  apply (metadata_agrees_with_get Compress.rawFrames_inverts ?_ reached rfl
    (ascii "0")).1 (Or.inr rfl)
  intro options stopped listed
  simp only [List.mem_cons, Op.openFile.injEq, reduceCtorEq, or_false,
    List.not_mem_nil] at listed
  rw [listed.1]
  rfl

end Store
end Haste
