import Haste.Store.Allocation

/-!
# A paste is written once

Only the access time of a row ever changes, and a later paste never takes the
code of an earlier one.  So a read of a code finds what `Create` stored under
it, in every later state, and the columns round-trip: the body through its
frame, the instants through whole seconds and the lifetime through the nullable
column.
-/

namespace Haste
namespace Store

open Go
open Foundation

/-! ## What `Create` has stored -/

/-- The title of an accepted request is the one given, without the space around
it. -/
theorem cleanTitle_eq_ok
    {title cleaned : Bytes}
    (accepted : cleanTitle title = .ok cleaned) :
    cleaned = trimSpace title := by
  unfold cleanTitle at accepted
  simp only at accepted
  split at accepted
  · rename_i blank
    rw [blank]
    exact (Except.ok.inj accepted).symm
  · split at accepted
    · cases accepted
    · split at accepted
      · cases accepted
      · exact (Except.ok.inj accepted).symm

theorem checkRequest_eq_ok
    {options : Options}
    {request : Request}
    {title : Bytes}
    (accepted : checkRequest options request = .ok title) :
    title = trimSpace request.title ∧ allowedTTL request.ttl = true := by
  unfold checkRequest at accepted
  simp only at accepted
  split at accepted
  · cases accepted
  · split at accepted
    · cases accepted
    · cases cleaned : cleanTitle request.title with
      | error error =>
          rw [cleaned] at accepted
          cases accepted
      | ok clean =>
          rw [cleaned] at accepted
          simp only at accepted
          split at accepted
          · rename_i allowed
            cases accepted
            exact ⟨cleanTitle_eq_ok cleaned, allowed⟩
          · cases accepted

section Stored

variable
  {options : Options}
  {env : Env}
  {request : Request}
  {db next : Database}
  {paste : Paste}
  (created : Created options env request db paste next)
include created

theorem Created.language : paste.language = request.language := by
  rw [created.metadata]
  rfl

theorem Created.title : paste.title = trimSpace request.title :=
  (checkRequest_eq_ok created.accepted).1

theorem Created.wellFormed : Id.valid paste.code = true := by
  obtain ⟨long, short, base62⟩ :=
    options.ids.code_shape created.allocated.issued
  exact (Id.valid_iff _).mpr
    ⟨options.ids.minLen_pos.trans long, short, base62⟩

/-- An instant of the paste is a whole second. -/
theorem Created.ofUnix_createdAt :
    ofUnix (unix paste.createdAt) = paste.createdAt := by
  rw [created.metadata]
  exact ofUnix_unix_truncateToSecond env.now

theorem Created.ofUnix_expiresAt
    {expires : Int}
    (expiring : expires ∈ paste.expiresAt) :
    ofUnix (unix expires) = expires := by
  obtain ⟨seconds, _, whole⟩ :=
    allowedTTL_seconds (checkRequest_eq_ok created.accepted).2
  rw [created.metadata] at expiring
  simp only [draft, Option.mem_def, Option.ite_none_right_eq_some,
    Option.some.injEq] at expiring
  obtain ⟨_, rfl⟩ := expiring
  rw [whole, unix_add_seconds, ofUnix, add_mul]
  exact congrArg (· + seconds * second) (ofUnix_unix_truncateToSecond env.now)

/-- Reading the columns of its row gives the paste back. -/
theorem Created.paste_row :
    (paste.row (options.codec.compress request.content).1
      (options.codec.compress request.content).2).paste
        (options.codec.compress request.content).1.length = paste := by
  have size : ((options.codec.compress request.content).1.length : Int) =
      paste.storedSize := by
    rw [created.metadata]
    rfl
  have lifetime : (paste.expiresAt.map unix).map ofUnix = paste.expiresAt := by
    cases expiring : paste.expiresAt with
    | none => rfl
    | some expires => exact congrArg some (created.ofUnix_expiresAt expiring)
  simp only [Row.paste, Paste.row, size, created.ofUnix_createdAt, lifetime]

end Stored

/-! ## What later steps leave of it -/

/-- The same key, the same minimum code length and the same zstd library. -/
structure Options.KeepsPastes (last options : Options) : Prop where
  sameKey : options.ids.mac = last.ids.mac
  sameMinLen : options.ids.minLen = last.ids.minLen
  sameLibrary : options.codec.zstd = last.codec.zstd

theorem Options.KeepsPastes.trans
    (first second third : Options)
    (before : first.KeepsPastes second)
    (after : second.KeepsPastes third) :
    first.KeepsPastes third :=
  ⟨after.sameKey.trans before.sameKey, after.sameMinLen.trans before.sameMinLen,
    after.sameLibrary.trans before.sameLibrary⟩

theorem Options.KeepsPastes.keepsCodes
    {last options : Options}
    (keeps : last.KeepsPastes options) :
    last.KeepsCodes options :=
  ⟨keeps.sameKey, keeps.sameMinLen.ge⟩

/-- No row but the stored one has its code, and its columns are unaltered up to
the access time. -/
structure Database.Preserves (db : Database) (stored : Row) : Prop where
  counted : stored.seq ≤ db.pasteSeq
  unaltered : ∀ row ∈ db.pastes.rows, row.code = stored.code →
    row = stored.withAccess row.accessedAt

theorem Created.preserves
    {options : Options}
    {env : Env}
    {request : Request}
    {db next : Database}
    {paste : Paste}
    (created : Created options env request db paste next) :
    next.Preserves (paste.row (options.codec.compress request.content).1
      (options.codec.compress request.content).2) := by
  refine ⟨created.stores.pasteSeq.ge, ?_⟩
  intro row present sameCode
  rw [Pastes.eq_of_code_eq present created.stores.mem_rows sameCode]
  rfl

/-- No step alters a stored row. -/
theorem Change.preserves
    {first options : Options}
    (keeps : first.KeepsPastes options)
    {db next : Database}
    (change : Change (some options) db next)
    {counter : Nat}
    {stored : Row}
    (allocated : Allocated first.ids counter stored.seq stored.code)
    (preserves : db.Preserves stored) :
    next.Preserves stored := by
  refine ⟨preserves.counted.trans change.pasteSeq_le, ?_⟩
  intro row present sameCode
  rcases change.row_cases present with
    ⟨old, oldPresent, same, _⟩ | ⟨_, _, _, paste, isCurrent, created, rfl⟩
  · rw [same] at sameCode ⊢
    rw [preserves.unaltered old oldPresent sameCode]
    rfl
  · cases isCurrent
    exact absurd sameCode.symm (allocated.code_ne keeps.keepsCodes
      created.allocated preserves.counted)

section Reading

variable
  {options current : Options}
  {env now : Env}
  {request : Request}
  {before after db : Database}
  {paste : Paste}
  (created : Created options env request before paste after)
  (preserves : db.Preserves
    (paste.row (options.codec.compress request.content).1
      (options.codec.compress request.content).2))
include created preserves

/-- A stored row is within its lifetime up to the instant recorded. -/
theorem Created.unexpired_iff
    {row : Row}
    (present : row ∈ db.pastes.rows)
    (sameCode : row.code = paste.code)
    (instant : Int) :
    row.unexpired instant ↔ ∀ expires ∈ paste.expiresAt, instant < expires := by
  rw [preserves.unaltered row present sameCode]
  have whole : ∀ expires ∈ paste.expiresAt,
      (unix instant < unix expires ↔ instant < expires) := by
    intro expires expiring
    have exact := created.ofUnix_expiresAt expiring
    simp only [ofUnix, unix, second] at exact ⊢
    omega
  simp only [Row.unexpired, Row.withAccess, Paste.row, Option.mem_def,
    Option.map_eq_some_iff, forall_exists_index, and_imp,
    forall_apply_eq_imp_iff₂]
  exact forall₂_congr whole

/-- A successful `Get` of the code answers the paste and the content stored. -/
theorem Created.get_eq
    (inverts : options.codec.zstd.Inverts)
    (keeps : options.KeepsPastes current)
    {found : Paste}
    {content : Bytes}
    (read : get current now paste.code db = .ok (found, content)) :
    found = paste ∧ content = request.content ∧
      ∀ expires ∈ paste.expiresAt, now.now < expires := by
  obtain ⟨row, present, sameCode, isVisible, rfl, decoded⟩ := get_eq_ok read
  have unexpired := ((visible_iff _ _ _).mp isVisible).1
  rw [created.unexpired_iff preserves present sameCode] at unexpired
  have stored := preserves.unaltered row present sameCode
  rw [stored] at decoded ⊢
  refine ⟨created.paste_row, ?_, unexpired⟩
  have size : paste.rawBytes = request.content.length := by
    rw [created.metadata]
    rfl
  have inverse := Compress.Codec.decompress_compress inverts keeps.sameLibrary
    request.content
  simp only [Row.withAccess, Paste.row, size] at decoded
  rw [inverse] at decoded
  exact (Except.ok.inj decoded).symm

/-- A successful `Meta` of the code answers the paste stored. -/
theorem Created.metadata_eq
    {found : Paste}
    (read : Store.metadata current now paste.code db = .ok found) :
    found = paste ∧ ∀ expires ∈ paste.expiresAt, now.now < expires := by
  obtain ⟨row, present, sameCode, isVisible, rfl⟩ := metadata_eq_ok read
  have unexpired := ((visible_iff _ _ _).mp isVisible).1
  rw [created.unexpired_iff preserves present sameCode] at unexpired
  rw [preserves.unaltered row present sameCode]
  exact ⟨created.paste_row, unexpired⟩

/-- While its row is there, `Get` does not find the paste only when its instant
has come or an operator's lifetime hides the row. -/
theorem Created.hidden_of_notFound
    {row : Row}
    (present : row ∈ db.pastes.rows)
    (sameCode : row.code = paste.code)
    (missing : get current now paste.code db = .error .notFound) :
    (∃ expires ∈ paste.expiresAt, expires ≤ now.now) ∨
      ¬withinTTL now.now current.ttlAccess row.accessedAt ∨
      ¬withinTTL now.now current.ttlCreate row.createdAt := by
  have hidden := (get_eq_notFound_iff.mp missing).resolve_left
    (by simp [created.wellFormed])
  have invisible := mt (visible_iff _ _ _).mpr
    (Bool.eq_false_iff.mp (hidden.2 row present sameCode))
  rw [created.unexpired_iff preserves present sameCode] at invisible
  simpa only [not_and_or, not_forall, exists_prop, not_lt] using invisible

end Reading

/-- Every later state preserves the row of a successful `Create`, and its store
has related options. -/
theorem System.preserves_run
    {system : System}
    (sound : system.Sound)
    {first : Options}
    (current : ∃ options, system.settings = some options ∧
      first.KeepsPastes options)
    {counter : Nat}
    {stored : Row}
    (allocated : Allocated first.ids counter stored.seq stored.code)
    (preserves : system.content.Preserves stored)
    {ops : List Op}
    (reopens : Runs.Each step (ReopensWith Options.KeepsPastes) system ops)
    {later : OpenStore}
    (reached : system.run ops = .opened later) :
    first.KeepsPastes later.options ∧ later.db.Preserves stored := by
  obtain ⟨options, isCurrent, keeps⟩ :=
    settings_run Options.KeepsPastes.trans sound current reopens
  have kept := invariant_run_of_related_change Options.KeepsPastes.trans
    (fun content => content.Preserves stored)
    (fun _ _ _ related change => change.preserves related allocated)
    sound current preserves reopens
  rw [reached] at isCurrent kept
  cases isCurrent
  exact ⟨keeps, kept⟩

/-- Whatever happens after a successful `Create`, with reopenings under the same
key and minimum length: every successful `Get` of the code answers the paste
and the content byte for byte, every successful `Meta` the paste, neither at or
after its expiry; and while a row has the code, `Get` does not find it only when
the expiry has come or an operator's lifetime hides the row. -/
theorem create_writes_once
    {file : File}
    {last : Option Options}
    {before : List Op}
    {store : OpenStore}
    (reached : (System.closed file last).run before = .opened store)
    (inverts : store.options.codec.zstd.Inverts)
    {env : Env}
    {request : Request}
    {paste : Paste}
    (created : (System.opened store).answer (.create env request) =
      .created paste)
    {after : List Op}
    (reopens : Runs.Each System.step
      (System.ReopensWith Options.KeepsPastes)
      ((System.opened store).step (.create env request)) after) :
    let later := (System.opened store).run (.create env request :: after)
    paste.language = request.language ∧
    paste.title = trimSpace request.title ∧
    (∀ env found content,
      later.answer (.get env paste.code) = .got found content →
        found = paste ∧ content = request.content ∧
          ∀ expires ∈ paste.expiresAt, env.now < expires) ∧
    (∀ env found,
      later.answer (.metadata env paste.code) = .described found →
        found = paste ∧ ∀ expires ∈ paste.expiresAt, env.now < expires) ∧
    ∀ current row env, later = .opened current →
      row ∈ current.db.pastes.rows → row.code = paste.code →
      later.answer (.get env paste.code) = .failed .notFound →
        (∃ expires ∈ paste.expiresAt, expires ≤ env.now) ∨
        ¬withinTTL env.now current.options.ttlAccess row.accessedAt ∨
        ¬withinTTL env.now current.options.ttlCreate row.createdAt := by
  have sound : (System.opened store).Sound :=
    System.accounted_of_run (System.sound_closed file last) reached
  obtain ⟨same, db, isSame, stepped, isCreated⟩ :=
    System.created_of_answer sound created
  cases isSame
  have nextSound := (System.step_spec sound (.create env request)).1
  rw [stepped] at nextSound reopens
  have kept : ∀ current, (System.opened store).run
      (.create env request :: after) = .opened current →
      store.options.KeepsPastes current.options ∧
        current.db.Preserves (paste.row
          (store.options.codec.compress request.content).1
          (store.options.codec.compress request.content).2) := by
    intro current isCurrent
    rw [System.run_cons, stepped] at isCurrent
    exact System.preserves_run nextSound
      ⟨store.options, rfl, rfl, rfl, rfl⟩ isCreated.allocated
      isCreated.preserves reopens isCurrent
  refine ⟨isCreated.language, isCreated.title, ?_, ?_, ?_⟩
  · intro now found content answered
    obtain ⟨current, isCurrent, read⟩ := System.got_of_answer answered
    obtain ⟨keeps, preserves⟩ := kept current isCurrent
    exact isCreated.get_eq preserves inverts keeps read
  · intro now found answered
    obtain ⟨current, isCurrent, read⟩ := System.described_of_answer answered
    exact isCreated.metadata_eq (kept current isCurrent).2 read
  · intro current row now isCurrent present sameCode answered
    rw [isCurrent, System.answer_get_eq_failed_iff] at answered
    exact isCreated.hidden_of_notFound (kept current isCurrent).2 present
      sameCode answered

/-- A paste with a title and an hour to live, read back after its file was
reopened. -/
theorem create_writes_once_small :
    let request : Request := ⟨ascii "a", ascii "go", ascii " t ", hour⟩
    let after : List Op := [.shut, .openFile Options.small none]
    ∃ store paste found content,
      (System.closed .fresh none).run [.openFile Options.small none] =
        .opened store ∧
      (System.opened store).answer (.create (.calm 5000000001) request) =
        .created paste ∧
      ((System.opened store).run
        (.create (.calm 5000000001) request :: after)).answer
          (.get (.calm 6000000000) paste.code) = .got found content ∧
      paste.title = trimSpace request.title ∧
      found = paste ∧ content = request.content ∧
      ∀ expires ∈ paste.expiresAt, 6000000000 < expires := by
  intro request after
  have keeps : ∀ first second : Options,
      first = Options.small → second = Options.small →
        first.KeepsPastes second := by
    rintro _ _ rfl rfl
    exact ⟨rfl, rfl, rfl⟩
  have allReopens : Runs.Each System.step
      (System.ReopensWith Options.KeepsPastes) (System.closed .fresh none)
      ([.openFile Options.small none, .create (.calm 5000000001) request] ++
        after) :=
    System.reopensWith_of_forall keeps
      (System.sound_closed .fresh none)
      (fun _ noOptions => by cases noOptions) (by simp [after])
  have reopens := (Runs.each_append.mp allReopens).2
  obtain ⟨store, reached, isSmall⟩ : ∃ store,
      (System.closed .fresh none).run [.openFile Options.small none] =
        .opened store ∧ store.options = Options.small := ⟨_, rfl, rfl⟩
  have created : (System.opened store).answer
      (.create (.calm 5000000001) request) =
        .created ⟨1, ascii "0", ascii "go", ascii "t", 1, 1, 10, 5000000000,
          some 3605000000000⟩ := by
    rw [← reached]
    decide +kernel
  have got : ((System.opened store).run
      (.create (.calm 5000000001) request :: after)).answer
        (.get (.calm 6000000000) (ascii "0")) =
      .got ⟨1, ascii "0", ascii "go", ascii "t", 1, 1, 10, 5000000000,
        some 3605000000000⟩ (ascii "a") := by
    rw [← reached]
    decide +kernel
  have spec := create_writes_once reached
    (by rw [isSmall]; exact Compress.rawFrames_inverts) created
    (by rw [← reached]; exact reopens)
  obtain ⟨same, sameContent, unexpired⟩ := spec.2.2.1 _ _ _ got
  exact ⟨store, _, _, _, reached, created, got, spec.2.1, same, sameContent,
    unexpired⟩

end Store
end Haste
