import Haste.Store.Retention
import Haste.Store.WriteOnce

/-!
# What a paste is lost to

Once `Create` has answered a paste, a read of its code that does not fail
answers that paste and its content, until one of the causes listed here takes
it: its own lifetime or an operator's lifetime has run out at the read, or an
earlier step removed its row under one of the rules.  No failure, flush or
reopening is among the causes.
-/

namespace Haste
namespace Store

open Go
open Foundation

/-- What a step takes a row for: a `Create` for its room, or a sweep under one of
its four rules. -/
inductive Condemns (store : OpenStore) (row : Row) : Op → Prop
  | evicted
      (env : Env)
      (request : Request)
      (paste : Paste)
      (stored : (System.opened store).answer (.create env request) =
        .created paste)
      (lru : row ∈ store.db.evicted store.options.maxBytes
        (store.options.codec.compress request.content).1.length) :
      Condemns store row (.create env request)
  | expired
      (env : Env)
      (lapsed : row.expired env.now = true) :
      Condemns store row (.sweep env)
  | overCap
      (env : Env)
      (lru : row ∈ store.db.overCap store.options env.now) :
      Condemns store row (.sweep env)
  | unread
      (env : Env)
      (stale : row.stale env.now store.options.ttlAccess Row.accessedAt = true) :
      Condemns store row (.sweep env)
  | old
      (env : Env)
      (stale : row.stale env.now store.options.ttlCreate Row.createdAt = true) :
      Condemns store row (.sweep env)

/-- Why a read at this instant passes over a row of the table. -/
inductive Hides (options : Options) (now : Int) (row : Row) : Prop
  | expired (lapsed : row.expired now = true)
  | unread (beyond : ¬withinTTL now options.ttlAccess row.accessedAt)
  | old (beyond : ¬withinTTL now options.ttlCreate row.createdAt)

theorem hides_iff (options : Options) (now : Int) (row : Row) :
    Hides options now row ↔ visible options now row = false := by
  rw [← Bool.not_eq_true, visible_iff, not_and_or, not_and_or,
    ← Row.expired_iff]
  constructor
  · rintro (lapsed | beyond | beyond)
    · exact Or.inl lapsed
    · exact Or.inr (Or.inl beyond)
    · exact Or.inr (Or.inr beyond)
  · rintro (lapsed | beyond | beyond)
    · exact .expired lapsed
    · exact .unread beyond
    · exact .old beyond

/-- A row the sweep does not spare goes under one of its rules. -/
theorem condemns_of_not_spared
    {store : OpenStore}
    {row : Row}
    {env : Env}
    (taken : ¬store.db.Spares store.options env.now row) :
    Condemns store row (.sweep env) := by
  by_cases lapsed : row.expired env.now = true
  · exact .expired env lapsed
  · by_cases lru : row ∈ store.db.overCap store.options env.now
    · exact .overCap env lru
    · by_cases unread : row.stale env.now store.options.ttlAccess
          Row.accessedAt = true
      · exact .unread env unread
      · by_cases old : row.stale env.now store.options.ttlCreate
            Row.createdAt = true
        · exact .old env old
        · exact absurd ⟨Bool.not_eq_true _ ▸ lapsed, lru,
            Bool.not_eq_true _ ▸ unread, Bool.not_eq_true _ ▸ old⟩ taken

/-- A row of the table is this one, up to the access time. -/
def Database.Has (db : Database) (stored : Row) : Prop :=
  ∃ accessedAt, stored.withAccess accessedAt ∈ db.pastes.rows

/-- A step takes a row out of the table, for one of the listed reasons. -/
structure Removes (store : OpenStore) (row : Row) (op : Op) : Prop where
  rule : Condemns store row op
  gone : ¬((System.opened store).step op).content.Has row

namespace System

/-- A step after which a row is not in the table has removed it. -/
theorem removes_of_step
    {system : System}
    (sound : system.Sound)
    {op : Op}
    {row : Row}
    (present : row ∈ system.content.pastes.rows)
    (gone : ¬(system.step op).content.Has row) :
    ∃ store, system = .opened store ∧ Removes store row op := by
  cases system with
  | closed file last =>
      have same := (step_closed_sameContent file last op).1
      exact absurd ⟨row.accessedAt, same.symm ▸ present⟩ gone
  | opened store =>
      refine ⟨store, rfl, ?_, gone⟩
      have ended := outcome sound op
      generalize isAnswer : (System.opened store).answer op = answer at ended
      generalize (System.opened store).step op = next at ended gone
      cases ended with
      | created env request paste db created =>
          refine .evicted env request paste isAnswer ?_
          by_contra spared
          refine gone ⟨row.accessedAt, ?_⟩
          change row ∈ db.pastes.rows
          rw [created.stores.rows, List.mem_append]
          refine Or.inl (Database.mem_discard_iff.mpr ⟨present, ?_⟩)
          simpa using spared
      | flushed env pending | flushedForSweep env pending =>
          exact absurd ⟨_, List.mem_map_of_mem present⟩ gone
      | swept env flushed sweeping =>
          refine condemns_of_not_spared fun spared => gone ⟨row.accessedAt, ?_⟩
          exact Database.mem_swept_iff.mpr ⟨present, spared⟩
      | _ => exact absurd ⟨row.accessedAt, present⟩ gone

/-- Some step of the run takes the row, whatever access time it has there, out of
the table for one of the listed reasons. -/
def Loses (start : System) (ops : List Op) (stored : Row) : Prop :=
  ∃ before op after store accessedAt,
    ops = before ++ op :: after ∧
    start.run before = .opened store ∧
    stored.withAccess accessedAt ∈ store.db.pastes.rows ∧
    Removes store (stored.withAccess accessedAt) op

/-- A row is in the table unless a step of the run has removed it. -/
theorem has_or_loses
    {system : System}
    (sound : system.Sound)
    {stored : Row}
    {ops : List Op}
    (present : system.content.Has stored) :
    (system.run ops).content.Has stored ∨ system.Loses ops stored := by
  by_cases kept : (system.run ops).content.Has stored
  · exact Or.inl kept
  · obtain ⟨before, op, after, split, ⟨accessedAt, here⟩, gone⟩ :=
      Runs.exists_step_of_lost
        (fun state : System => state.content.Has stored) present kept
    change stored.withAccess accessedAt ∈
      (system.run before).content.pastes.rows at here
    obtain ⟨store, isOpen, removes⟩ :=
      removes_of_step (sound_run sound before) here gone
    rw [isOpen] at here
    exact Or.inr ⟨before, op, after, store, _, split, isOpen, here, removes⟩

end System

/-- A row that no rule hides is read back as the paste and the content it was
stored for. -/
theorem Created.got_of_visible
    {options current : Options}
    {env now : Env}
    {request : Request}
    {before after db : Database}
    {paste : Paste}
    (created : Created options env request before paste after)
    (inverts : options.codec.zstd.Inverts)
    (sameLibrary : current.codec.zstd = options.codec.zstd)
    (works : now.fails db .readPaste = false)
    {accessedAt : Int}
    (present : (paste.row (options.codec.compress request.content).1
      (options.codec.compress request.content).2).withAccess accessedAt ∈
        db.pastes.rows)
    (isVisible : visible current now.now
      ((paste.row (options.codec.compress request.content).1
        (options.codec.compress request.content).2).withAccess accessedAt) =
          true) :
    get current now paste.code db = .ok (paste, request.content) := by
  have size : paste.rawBytes = request.content.length := by
    rw [created.metadata]
    rfl
  have inverse := Compress.Codec.decompress_compress inverts sameLibrary
    request.content
  have decoded : current.codec.decompress
      (options.codec.compress request.content).1
      (options.codec.compress request.content).2 paste.rawBytes =
        .ok request.content := by
    rw [size]
    exact inverse
  unfold get
  rw [readRow_eq_of_visible created.wellFormed works present rfl isVisible]
  simp only [Row.withAccess, Paste.row, decoded]
  exact congrArg (fun found => Except.ok (found, request.content))
    created.paste_row

/-- After its creation, under whatever settings: a `Get` whose query does not
fail serves the paste, or a rule hides its row, or a step has removed it. -/
theorem Created.served_or_lost
    {options : Options}
    {env now : Env}
    {request : Request}
    {before db : Database}
    {paste : Paste}
    (created : Created options env request before paste db)
    (inverts : options.codec.zstd.Inverts)
    {next : System}
    (sound : next.Sound)
    (isContent : next.content = db)
    {after : List Op}
    {later : OpenStore}
    (reached : next.run after = .opened later)
    (sameLibrary : later.options.codec.zstd = options.codec.zstd)
    (works : now.fails later.db .readPaste = false) :
    let stored := paste.row (options.codec.compress request.content).1
      (options.codec.compress request.content).2
    get later.options now paste.code later.db = .ok (paste, request.content) ∨
      (∃ accessedAt, stored.withAccess accessedAt ∈ later.db.pastes.rows ∧
        Hides later.options now.now (stored.withAccess accessedAt)) ∨
      next.Loses after stored := by
  intro stored
  have present : next.content.Has stored := by
    rw [isContent]
    exact ⟨stored.accessedAt, created.stores.mem_rows⟩
  rcases System.has_or_loses sound present with ⟨accessedAt, here⟩ | loses
  · rw [reached] at here
    by_cases isVisible : visible later.options now.now
        (stored.withAccess accessedAt) = true
    · exact Or.inl
        (created.got_of_visible inverts sameLibrary works here isVisible)
    · exact Or.inr (Or.inl ⟨_, here,
        (hides_iff _ _ _).mpr (Bool.eq_false_iff.mpr isVisible)⟩)
  · exact Or.inr (Or.inr loses)

/-- Why a paste is not there for a read: a rule hides its row at this instant,
or a step has taken it out of the table. -/
def System.Gone
    (start : System)
    (ops : List Op)
    (stored : Row)
    (store : OpenStore)
    (now : Int) : Prop :=
  (∃ accessedAt, stored.withAccess accessedAt ∈ store.db.pastes.rows ∧
    Hides store.options now (stored.withAccess accessedAt)) ∨
  start.Loses ops stored

section Later

variable
  {options : Options}
  {env now : Env}
  {request : Request}
  {before db : Database}
  {paste : Paste}
  (created : Created options env request before paste db)
  (inverts : options.codec.zstd.Inverts)
  {next : System}
  (sound : next.Sound)
  (isContent : next.content = db)
  (isSettings : next.settings = some options)
  {after : List Op}
  (reopens : Runs.Each System.step (System.ReopensWith Options.KeepsPastes)
    next after)
  {later : OpenStore}
  (reached : next.run after = .opened later)
  (pasteWorks : now.fails later.db .readPaste = false)
include created inverts sound isContent isSettings reopens reached pasteWorks

/-- `Get` serves the paste from its row, or no row with its code is visible, for
a cause. -/
theorem Created.got_or_hidden :
    let stored := paste.row (options.codec.compress request.content).1
      (options.codec.compress request.content).2
    (get later.options now paste.code later.db = .ok (paste, request.content) ∧
        ∃ accessedAt, stored.withAccess accessedAt ∈ later.db.pastes.rows ∧
          visible later.options now.now (stored.withAccess accessedAt) = true) ∨
      (get later.options now paste.code later.db = .error .notFound ∧
        (∀ row ∈ later.db.pastes.rows, row.code = paste.code →
          visible later.options now.now row = false) ∧
        next.Gone after stored later now.now) := by
  intro stored
  obtain ⟨keeps, preserves⟩ := System.preserves_run sound
    ⟨options, isSettings, rfl, rfl, rfl⟩ created.allocated
    (isContent ▸ created.preserves) reopens reached
  have cause := created.served_or_lost inverts sound isContent reached
    keeps.sameLibrary pasteWorks
  by_cases hidden : ∀ row ∈ later.db.pastes.rows, row.code = paste.code →
      visible later.options now.now row = false
  · have none := get_eq_notFound_iff.mpr (Or.inr ⟨pasteWorks, hidden⟩)
    refine Or.inr ⟨none, hidden, cause.resolve_left ?_⟩
    rw [none]
    exact fun served => by cases served
  · push Not at hidden
    obtain ⟨row, here, sameCode, isVisible⟩ := hidden
    rw [ne_eq, Bool.not_eq_false] at isVisible
    have isRow := preserves.unaltered row here sameCode
    rw [isRow] at here isVisible
    exact Or.inl ⟨created.got_of_visible inverts keeps.sameLibrary pasteWorks here
      isVisible,
      _, here, isVisible⟩

/-- `Get` and `Meta` both serve the paste, or both answer that there is none, for
a cause. -/
theorem Created.found_or_gone
    (metadataWorks : now.fails later.db .readMetadata = false) :
    get later.options now paste.code later.db = .ok (paste, request.content) ∧
        Store.metadata later.options now paste.code later.db = .ok paste ∨
      get later.options now paste.code later.db = .error .notFound ∧
        Store.metadata later.options now paste.code later.db = .error .notFound ∧
        next.Gone after (paste.row (options.codec.compress request.content).1
          (options.codec.compress request.content).2) later now.now := by
  rcases created.got_or_hidden inverts sound isContent isSettings reopens reached
    pasteWorks with ⟨got, accessedAt, here, isVisible⟩ | ⟨none, hidden, gone⟩
  · refine Or.inl ⟨got, ?_⟩
    rw [Store.metadata, readRow_eq_of_visible created.wellFormed metadataWorks here
      rfl isVisible]
    exact congrArg Except.ok created.paste_row
  · exact Or.inr ⟨none, metadata_eq_notFound_iff.mpr
      (Or.inr ⟨metadataWorks, hidden⟩), gone⟩

end Later

/-- No rule that removes or hides pastes is switched on. -/
structure Options.Ruleless (options : Options) : Prop where
  uncapped : options.maxBytes ≤ 0
  noAccess : options.ttlAccess ≤ 0
  noCreate : options.ttlCreate ≤ 0

theorem Options.Ruleless.not_hides
    {options : Options}
    (ruleless : options.Ruleless)
    {now : Int}
    {row : Row}
    (lasting : row.expiresAt = none) :
    ¬Hides options now row := by
  rintro (lapsed | beyond | beyond)
  · simp [Row.expired, lasting] at lapsed
  · exact beyond (Or.inl (if_pos ruleless.noAccess))
  · exact beyond (Or.inl (if_pos ruleless.noCreate))

theorem Options.Ruleless.not_removes
    {store : OpenStore}
    (ruleless : store.options.Ruleless)
    {row : Row}
    (lasting : row.expiresAt = none)
    {op : Op} :
    ¬Removes store row op := by
  have uncapped := not_lt.mpr ruleless.uncapped
  intro removes
  cases removes.rule with
  | evicted env request paste stored lru =>
      rw [Database.evicted, if_neg uncapped] at lru
      cases lru
  | expired env lapsed => simp [Row.expired, lasting] at lapsed
  | overCap env lru =>
      rw [Database.overCap, Database.evicted, if_neg uncapped] at lru
      cases lru
  | unread env stale =>
      have enabled := (Row.stale_iff.mp stale).1
      simp [cutoff, ruleless.noAccess] at enabled
  | old env stale =>
      have enabled := (Row.stale_iff.mp stale).1
      simp [cutoff, ruleless.noCreate] at enabled

/-- A paste without a lifetime is served after a run without rules. -/
theorem Created.served_of_ruleless
    {options : Options}
    {env now : Env}
    {request : Request}
    {before db : Database}
    {paste : Paste}
    (created : Created options env request before paste db)
    (inverts : options.codec.zstd.Inverts)
    {next : System}
    (sound : next.Sound)
    (isContent : next.content = db)
    {after : List Op}
    {later : OpenStore}
    (reached : next.run after = .opened later)
    (sameLibrary : later.options.codec.zstd = options.codec.zstd)
    (works : now.fails later.db .readPaste = false)
    (lasting : paste.expiresAt = none)
    (ruleless : ∀ ops rest middle, after = ops ++ rest →
      next.run ops = .opened middle → middle.options.Ruleless) :
    get later.options now paste.code later.db = .ok (paste, request.content) := by
  have isLasting : ∀ accessedAt,
      ((paste.row (options.codec.compress request.content).1
        (options.codec.compress request.content).2).withAccess
          accessedAt).expiresAt = none := by
    intro accessedAt
    change paste.expiresAt.map unix = none
    rw [lasting]
    rfl
  rcases created.served_or_lost inverts sound isContent reached sameLibrary works
    with served | ⟨accessedAt, -, hides⟩ |
      ⟨ops, op, rest, middle, accessedAt, split, isMiddle, -, removes⟩
  · exact served
  · exact absurd hides ((ruleless after [] later (List.append_nil after).symm
      reached).not_hides (isLasting accessedAt))
  · exact absurd removes ((ruleless ops (op :: rest) middle split
      isMiddle).not_removes (isLasting accessedAt))

/-- Whatever happens after a successful `Create`, with reopenings under the same
key, minimum length and library: a `Get` of the code whose query does not fail
answers the paste and its content, or a rule hides the row at that instant, or
a step in between has removed the row for one of the listed reasons.  A paste
without a lifetime, in a store that is only ever open without a cap and without
operator lifetimes, is always served. -/
theorem paste_lost_only_to_a_rule
    {file : File}
    {last : Option Options}
    {before : List Op}
    {store : OpenStore}
    (reached : (System.closed file last).run before = .opened store)
    (inverts : store.options.codec.zstd.Inverts)
    {env : Env}
    {request : Request}
    {paste : Paste}
    (created : (System.opened store).answer (.create env request) =
      .created paste)
    {after : List Op}
    (reopens : Runs.Each System.step
      (System.ReopensWith Options.KeepsPastes)
      ((System.opened store).step (.create env request)) after)
    {current : OpenStore}
    (reachedLater : (System.opened store).run (.create env request :: after) =
      .opened current)
    {now : Env}
    (works : now.fails current.db .readPaste = false) :
    let next := (System.opened store).step (.create env request)
    let stored := paste.row (store.options.codec.compress request.content).1
      (store.options.codec.compress request.content).2
    let served := (System.opened current).answer (.get now paste.code) =
      .got paste request.content
    (served ∨
      (∃ accessedAt, stored.withAccess accessedAt ∈ current.db.pastes.rows ∧
        Hides current.options now.now (stored.withAccess accessedAt)) ∨
      next.Loses after stored) ∧
    (paste.expiresAt = none → store.options.Ruleless →
      (∀ options stopped, .openFile options stopped ∈ after →
        options.Ruleless) → served) := by
  intro next stored served
  have sound : (System.opened store).Sound :=
    System.accounted_of_run (System.sound_closed file last) reached
  obtain ⟨same, db, isSame, stepped, isCreated⟩ :=
    System.created_of_answer sound created
  cases isSame
  have nextSound := (System.step_spec sound (.create env request)).1
  rw [stepped] at nextSound reopens
  have isNext : next = .opened { store with db } := stepped
  rw [System.run_cons, stepped] at reachedLater
  have sameLibrary := (System.preserves_run nextSound ⟨_, rfl, rfl, rfl, rfl⟩
    isCreated.allocated isCreated.preserves reopens
    reachedLater).1.sameLibrary
  have isServed : get current.options now paste.code current.db =
      .ok (paste, request.content) → served := by
    intro read
    change (System.opened current).answer _ = _
    rw [System.answer_get, read]
  constructor
  · have cause := isCreated.served_or_lost inverts nextSound rfl reachedLater
      sameLibrary works
    rw [isNext]
    exact cause.imp_left isServed
  · intro lasting ruleless rulelessAfter
    refine isServed (isCreated.served_of_ruleless inverts nextSound rfl
      reachedLater sameLibrary works lasting ?_)
    intro ops rest middle split isMiddle
    refine System.options_run_of_family nextSound (fun options current => ?_)
      (fun options stopped opening => rulelessAfter options stopped ?_) isMiddle
    · cases current
      exact ruleless
    · rw [split]
      exact List.mem_append_left _ opening

/-- A paste in a store without rules, read a day and a sweep later. -/
theorem paste_lost_only_to_a_rule_small :
    let later : Env := .calm (ofUnix 86400)
    let after : List Op := [.takeAccess true, .flushAccess later, .sweep later,
      .shut, .openFile Options.small none]
    ∃ store current paste,
      (System.closed .fresh none).run [.openFile Options.small none] =
        .opened store ∧
      (System.opened store).answer (.create (.calm 0) Request.small) =
        .created paste ∧
      (System.opened store).run (.create (.calm 0) Request.small :: after) =
        .opened current ∧
      (System.opened current).answer (.get later paste.code) =
        .got paste Request.small.content := by
  intro later after
  obtain ⟨store, reached, isSmall⟩ : ∃ store,
      (System.closed .fresh none).run [.openFile Options.small none] =
        .opened store ∧ store.options = Options.small := ⟨_, rfl, rfl⟩
  have created : (System.opened store).answer
      (.create (.calm 0) Request.small) =
        .created ⟨1, ascii "0", [], [], 1, 1, 10, 0, none⟩ := by
    rw [← reached]
    decide +kernel
  have described : ((System.opened store).run
      (.create (.calm 0) Request.small :: after)).answer
        (.metadata later (ascii "0")) =
          .described ⟨1, ascii "0", [], [], 1, 1, 10, 0, none⟩ := by
    rw [← reached]
    decide +kernel
  obtain ⟨current, reachedLater, _⟩ := System.described_of_answer described
  have keeps : ∀ first second : Options,
      first = Options.small → second = Options.small →
        first.KeepsPastes second := by
    rintro _ _ rfl rfl
    exact ⟨rfl, rfl, rfl⟩
  have allReopens : Runs.Each System.step
      (System.ReopensWith Options.KeepsPastes) (System.closed .fresh none)
      ([.openFile Options.small none, .create (.calm 0) Request.small] ++
        after) :=
    System.reopensWith_of_forall keeps
      (System.sound_closed .fresh none)
      (fun _ noOptions => by cases noOptions) (by simp [after])
  have reopens := (Runs.each_append.mp allReopens).2
  have spec := paste_lost_only_to_a_rule reached
    (by rw [isSmall]; exact Compress.rawFrames_inverts) created
    (by rw [← reached]; exact reopens) reachedLater
    (show later.fails current.db .readPaste = false from rfl)
  have ruleless : Options.small.Ruleless := ⟨le_rfl, le_rfl, le_rfl⟩
  refine ⟨store, current, _, reached, created, reachedLater,
    spec.2 rfl (isSmall ▸ ruleless) ?_⟩
  intro options stopped listed
  simp only [after, List.mem_cons, Op.openFile.injEq, reduceCtorEq,
    List.not_mem_nil, or_false, false_or] at listed
  rw [listed.1]
  exact ruleless

end Store
end Haste
