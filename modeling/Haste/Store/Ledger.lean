import Haste.Store.Durability

/-!
# The store as a ledger

What the store is for is a ledger: the pastes created so far with their
contents, of which a read finds the one with its code while that is live.  The
table, its sweeps and evictions refine it: nothing is ever read that is not in
the ledger, and without a cap and without a last-access rule every read is the
one of the ledger, whatever the sweeper does and whenever the file is reopened.
-/

namespace Haste
namespace Store

open Go
open Foundation

/-! ## The ledger -/

/-- The pastes created so far, with their contents. -/
abbrev Ledger := List (Paste × Bytes)

/-- Neither the paste's own lifetime nor the operator's has run out. -/
def Paste.liveAt (ttlCreate now : Int) (paste : Paste) : Bool :=
  (match paste.expiresAt with
    | none => true
    | some expires => decide (now < expires)) &&
  (cutoff now ttlCreate == 0 ||
    decide (cutoff now ttlCreate < unix paste.createdAt))

/-- The live paste with this code. -/
def Ledger.lookup
    (ledger : Ledger)
    (ttlCreate now : Int)
    (code : Bytes) : Option (Paste × Bytes) :=
  ledger.find? fun entry =>
    entry.1.code == code && entry.1.liveAt ttlCreate now

/-- What a read of the ledger answers. -/
def Ledger.read
    (ledger : Ledger)
    (ttlCreate now : Int)
    (code : Bytes) : Answer :=
  match ledger.lookup ttlCreate now code with
  | some (paste, content) => .got paste content
  | none => .failed .notFound

theorem Paste.liveAt_iff
    {ttlCreate now : Int}
    {paste : Paste} :
    paste.liveAt ttlCreate now = true ↔
      (∀ expires ∈ paste.expiresAt, now < expires) ∧
        withinTTL now ttlCreate (unix paste.createdAt) := by
  unfold liveAt withinTTL
  cases paste.expiresAt <;> simp

/-- A read that answers as every live entry says, and nothing else when there is
none, is the read of the ledger. -/
theorem Ledger.read_eq
    {ledger : Ledger}
    {ttlCreate now : Int}
    {code : Bytes}
    {answer : Answer}
    (live : ∀ entry ∈ ledger, entry.1.code = code →
      entry.1.liveAt ttlCreate now = true → answer = .got entry.1 entry.2)
    (dead : (∀ entry ∈ ledger, entry.1.code = code →
      entry.1.liveAt ttlCreate now = false) → answer = .failed .notFound) :
    answer = ledger.read ttlCreate now code := by
  unfold read
  cases found : ledger.lookup ttlCreate now code with
  | some entry =>
      have holds := List.find?_some found
      rw [Bool.and_eq_true, beq_iff_eq] at holds
      exact live entry (List.mem_of_find?_eq_some found) holds.1 holds.2
  | none =>
      refine dead fun entry listed sameCode => ?_
      have misses := List.find?_eq_none.mp found entry listed
      simpa [sameCode] using misses

/-- The entry a step adds to the ledger. -/
def Op.entry (op : Op) (answer : Answer) : Option (Paste × Bytes) :=
  match op, answer with
  | .create _ request, .created paste => some (paste, request.content)
  | _, _ => none

/-- The table has a row with this code. -/
def Database.Holds (db : Database) (code : Bytes) : Prop :=
  ∃ row ∈ db.pastes.rows, row.code = code

namespace System

/-- The ledger of a run. -/
def ledger : System → List Op → Ledger
  | _, [] => []
  | system, op :: rest =>
      (op.entry (system.answer op)).toList ++ ledger (system.step op) rest

/-- An entry of the ledger is a paste that one of the steps has created. -/
theorem mem_ledger
    {system : System}
    {ops : List Op}
    {entry : Paste × Bytes} :
    entry ∈ system.ledger ops ↔
      ∃ before env request after,
        ops = before ++ .create env request :: after ∧
        (system.run before).answer (.create env request) = .created entry.1 ∧
        entry.2 = request.content := by
  induction ops generalizing system with
  | nil =>
      constructor
      · intro listed
        cases listed
      · rintro ⟨before, env, request, after, split, -⟩
        cases before <;> cases split
  | cons op rest inductionHypothesis =>
      rw [ledger, List.mem_append, inductionHypothesis, Option.mem_toList]
      constructor
      · rintro (here | ⟨before, env, request, after, rfl, created, content⟩)
        · cases op with
          | create env request =>
              cases answered : system.answer (.create env request) with
              | created paste =>
                  rw [answered] at here
                  obtain rfl := Option.some.inj here
                  exact ⟨[], env, request, rest, rfl, answered, rfl⟩
              | _ =>
                  rw [answered] at here
                  cases here
          | _ => cases here
        · exact ⟨op :: before, env, request, after, rfl, created, content⟩
      · rintro ⟨before, env, request, after, split, created, content⟩
        cases before with
        | nil =>
            cases split
            have answered : system.answer (.create env request) =
              .created entry.1 := created
            refine Or.inl ?_
            rw [answered, ← Prod.mk.eta (p := entry), content]
            rfl
        | cons first before =>
            cases split
            exact Or.inr ⟨before, env, request, after, rfl, created, content⟩

/-- A row after a step has the code of a row before it, or of the paste that
the step has created. -/
theorem code_of_step
    {system : System}
    (sound : system.Sound)
    {op : Op}
    {code : Bytes}
    (present : (system.step op).content.Holds code) :
    system.content.Holds code ∨
      ∃ entry ∈ (op.entry (system.answer op)).toList, entry.1.code = code := by
  obtain ⟨row, here, rfl⟩ := present
  cases system with
  | closed file last =>
      rw [(step_closed_sameContent file last op).1] at here
      exact Or.inl ⟨row, here, rfl⟩
  | opened store =>
      have ended := outcome sound op
      generalize (System.opened store).answer op = answer at ended ⊢
      generalize (System.opened store).step op = next at ended here
      cases ended with
      | created env request paste db created =>
          change row ∈ db.pastes.rows at here
          rw [created.stores.rows, List.mem_append, List.mem_singleton] at here
          rcases here with old | rfl
          · exact Or.inl ⟨row, Database.mem_of_mem_discard old, rfl⟩
          · exact Or.inr ⟨(paste, request.content),
              by simp [Op.entry], rfl⟩
      | flushed env pending flushing | flushedForSweep env pending flushing =>
          obtain ⟨old, oldPresent, rfl⟩ := List.mem_map.mp here
          exact Or.inl ⟨old, oldPresent, rfl⟩
      | swept env flushed sweeping =>
          exact Or.inl ⟨row, Database.mem_of_mem_swept here, rfl⟩
      | _ => exact Or.inl ⟨row, here, rfl⟩

/-- A code of the table is one the run has started with or has an entry in its
ledger. -/
theorem code_of_run
    {system : System}
    (sound : system.Sound)
    {ops : List Op}
    {code : Bytes}
    (present : (system.run ops).content.Holds code) :
    system.content.Holds code ∨
      ∃ entry ∈ system.ledger ops, entry.1.code = code := by
  induction ops generalizing system with
  | nil => exact Or.inl present
  | cons op rest inductionHypothesis =>
      rcases inductionHypothesis (step_spec sound op).1 present with
        next | ⟨entry, listed, sameCode⟩
      · rcases code_of_step sound next with here | ⟨entry, listed, sameCode⟩
        · exact Or.inl here
        · exact Or.inr ⟨entry, List.mem_append_left _ listed, sameCode⟩
      · exact Or.inr ⟨entry, List.mem_append_right _ listed, sameCode⟩

end System

/-! ## Entries and rows -/

section Stored

variable
  {options : Options}
  {env : Env}
  {request : Request}
  {before db : Database}
  {paste : Paste}
  (created : Created options env request before paste db)
include created

/-- The row of a paste is past its lifetime when the paste is. -/
theorem Created.expired_iff
    {body : Bytes}
    {codec accessedAt now : Int} :
    ((paste.row body codec).withAccess accessedAt).expired now = true ↔
      ∃ expires ∈ paste.expiresAt, expires ≤ now := by
  rw [Row.expired_iff, ← not_iff_comm]
  simp only [not_exists, not_and, not_le]
  have whole : ∀ expires ∈ paste.expiresAt,
      (unix now < unix expires ↔ now < expires) := by
    intro expires expiring
    have exact := created.ofUnix_expiresAt expiring
    simp only [ofUnix, unix, second] at exact ⊢
    omega
  simp only [Row.unexpired, Row.withAccess, Paste.row, Option.mem_def,
    Option.map_eq_some_iff, forall_exists_index, and_imp,
    forall_apply_eq_imp_iff₂]
  exact (forall₂_congr whole).symm

/-- A live paste is not past its lifetime. -/
theorem Created.not_expired_of_live
    {body : Bytes}
    {codec accessedAt ttlCreate now : Int}
    (live : paste.liveAt ttlCreate now = true) :
    ¬((paste.row body codec).withAccess accessedAt).expired now = true := by
  rw [created.expired_iff]
  rintro ⟨expires, expiring, lapsed⟩
  exact absurd lapsed (not_le.mpr ((Paste.liveAt_iff.mp live).1 expires expiring))

/-- Without a last-access rule a read passes over no live paste. -/
theorem Created.not_hides_of_live
    {current : Options}
    {body : Bytes}
    {codec accessedAt now : Int}
    (noAccess : current.ttlAccess ≤ 0)
    (live : paste.liveAt current.ttlCreate now = true) :
    ¬Hides current now ((paste.row body codec).withAccess accessedAt) := by
  rintro (lapsed | beyond | beyond)
  · exact created.not_expired_of_live live lapsed
  · exact beyond (Or.inl (if_pos noAccess))
  · exact beyond (Paste.liveAt_iff.mp live).2

/-- Without a cap and a last-access rule no step up to now removes a paste that
is still live. -/
theorem Created.not_removes_of_live
    {store : OpenStore}
    {body : Bytes}
    {codec accessedAt now : Int}
    (uncapped : store.options.maxBytes ≤ 0)
    (noAccess : store.options.ttlAccess ≤ 0)
    (live : paste.liveAt store.options.ttlCreate now = true)
    {op : Op}
    (past : ∀ env, op = .sweep env → env.now ≤ now) :
    ¬Removes store ((paste.row body codec).withAccess accessedAt) op := by
  obtain ⟨within, young⟩ := Paste.liveAt_iff.mp live
  intro removes
  cases removes.rule with
  | evicted env request paste stored lru =>
      rw [Database.evicted, if_neg (not_lt.mpr uncapped)] at lru
      cases lru
  | expired env lapsed =>
      obtain ⟨expires, expiring, lapsed⟩ := created.expired_iff.mp lapsed
      have before := past env rfl
      have after := within expires expiring
      omega
  | overCap env lru =>
      rw [Database.overCap, Database.evicted, if_neg (not_lt.mpr uncapped)] at lru
      cases lru
  | unread env stale =>
      have enabled := (Row.stale_iff.mp stale).1
      simp [cutoff, noAccess] at enabled
  | old env stale =>
      obtain ⟨enabled, beyond⟩ := Row.stale_iff.mp stale
      change unix paste.createdAt ≤ _ at beyond
      have later := cutoff_mono (past env rfl) store.options.ttlCreate
      unfold withinTTL at young
      omega

/-- A visible row is that of a live paste. -/
theorem Created.live_of_visible
    {current : Options}
    {body : Bytes}
    {codec accessedAt now : Int}
    (isVisible : visible current now
      ((paste.row body codec).withAccess accessedAt) = true) :
    paste.liveAt current.ttlCreate now = true := by
  obtain ⟨unexpired, -, young⟩ := (visible_iff _ _ _).mp isVisible
  refine Paste.liveAt_iff.mpr ⟨fun expires expiring => ?_, young⟩
  by_contra lapsed
  exact (Row.expired_iff _ _).mp
    (created.expired_iff.mpr ⟨expires, expiring, not_lt.mp lapsed⟩) unexpired

end Stored

/-! ## Reads of the ledger -/

/-- Where an entry of the ledger comes from: the `Create` that stored it, and the
run from there under options that keep pastes. -/
structure System.Entered
    (entry : Paste × Bytes)
    (ops : List Op)
    (later : System) where
  options : Options
  env : Env
  request : Request
  before : Database
  next : System
  after : List Op
  created : Created options env request before entry.1 next.content
  content : entry.2 = request.content
  sound : next.Sound
  settings : next.settings = some options
  opened : ∃ stopped, .openFile options stopped ∈ ops
  reopens : Runs.Each System.step (System.ReopensWith Options.KeepsPastes)
    next after
  within : ∀ op ∈ after, op ∈ ops
  reached : next.run after = later

/-- A row of the table is that of an entry of the ledger. -/
theorem System.exists_entry
    {ops : List Op}
    {store : OpenStore}
    (reached : (System.closed .fresh none).run ops = .opened store)
    {row : Row}
    (present : row ∈ store.db.pastes.rows) :
    ∃ entry ∈ (System.closed .fresh none).ledger ops,
      entry.1.code = row.code := by
  have holds : ((System.closed .fresh none).run ops).content.Holds row.code := by
    rw [reached]
    exact ⟨row, present, rfl⟩
  rcases code_of_run (sound_closed .fresh none) holds with
    ⟨_, here, _⟩ | found
  · cases here
  · exact found

/-- A store that a run from a new file leaves open was opened by one of its
steps. -/
theorem System.exists_opening
    {ops : List Op}
    {store : OpenStore}
    (reached : (System.closed .fresh none).run ops = .opened store) :
    ∃ stopped, .openFile store.options stopped ∈ ops := by
  exact @options_run_of_family
    (fun options => ∃ stopped, .openFile options stopped ∈ ops) _
    (sound_closed .fresh none) (fun _ noOptions => by cases noOptions) ops
    (fun options stopped opening => ⟨stopped, opening⟩) store reached

section Entries

variable
  {base : Options}
  (inverts : base.codec.zstd.Inverts)
  {ops : List Op}
  (opens : ∀ options stopped, .openFile options stopped ∈ ops →
    base.KeepsPastes options)
include opens

theorem System.entered_of_mem
    {entry : Paste × Bytes}
    (listed : entry ∈ (System.closed .fresh none).ledger ops) :
    ∃ entered : System.Entered entry ops ((System.closed .fresh none).run ops),
      base.KeepsPastes entered.options := by
  obtain ⟨before, env, request, after, rfl, answered, content⟩ :=
    mem_ledger.mp listed
  have sound := sound_run (sound_closed .fresh none) before
  obtain ⟨store, db, isOpen, stepped, created⟩ :=
    created_of_answer sound answered
  have nextSound := (step_spec sound (.create env request)).1
  have relates : ∀ first second, base.KeepsPastes first →
      base.KeepsPastes second → first.KeepsPastes second :=
    fun first second keeps keeps' =>
      ⟨keeps'.sameKey.trans keeps.sameKey.symm,
        keeps'.sameMinLen.trans keeps.sameMinLen.symm,
        keeps'.sameLibrary.trans keeps.sameLibrary.symm⟩
  have reopens := reopensWith_of_forall relates
    (sound_closed .fresh none) (fun _ noOptions => by cases noOptions) opens
  rw [Runs.each_append] at reopens
  obtain ⟨stopped, opening⟩ := exists_opening isOpen
  have listedOpening := List.mem_append_left (.create env request :: after) opening
  refine ⟨⟨store.options, env, request, store.db,
    ((System.closed .fresh none).run before).step (.create env request), after,
    ?_, content, nextSound, ?_, ⟨stopped, listedOpening⟩, reopens.2.2, ?_, ?_⟩,
    opens _ stopped listedOpening⟩
  · rw [stepped]
    exact created
  · rw [stepped]
    rfl
  · exact fun op listed =>
      List.mem_append_right _ (List.mem_cons_of_mem _ listed)
  · rw [run_append]
    rfl

variable
  {store : OpenStore}
  (reached : (System.closed .fresh none).run ops = .opened store)
include reached

include inverts

/-- A row of the table is that of an entry of the ledger, which is live when the
row is visible and is what a `Get` of the code answers. -/
theorem System.exists_entry_of_row
    {row : Row}
    (present : row ∈ store.db.pastes.rows) :
    ∃ entry ∈ (System.closed .fresh none).ledger ops,
      entry.1.code = row.code ∧
      (∀ now, visible store.options now row = true →
        entry.1.liveAt store.options.ttlCreate now = true) ∧
      ∀ now found,
        get store.options now row.code store.db = .ok found → found = entry := by
  obtain ⟨entry, listed, isCode⟩ := exists_entry reached present
  obtain ⟨entered, keeps⟩ := entered_of_mem opens listed
  obtain ⟨keepsLater, preserves⟩ := preserves_run entered.sound
    ⟨entered.options, entered.settings, rfl, rfl, rfl⟩ entered.created.allocated
    entered.created.preserves entered.reopens (entered.reached.trans reached)
  refine ⟨entry, listed, isCode, ?_, ?_⟩
  · intro now isVisible
    rw [preserves.unaltered row present isCode.symm] at isVisible
    exact entered.created.live_of_visible isVisible
  · rintro now ⟨found, content⟩ read
    rw [← isCode] at read
    obtain ⟨rfl, sameContent, -⟩ := entered.created.get_eq preserves
      (keeps.sameLibrary ▸ inverts) keepsLater read
    rw [sameContent, ← entered.content]

/-- Without a cap and a last-access rule a live entry is served, unless the query
fails. -/
theorem System.entry_served
    {ttlCreate : Int}
    (rules : ∀ options stopped, .openFile options stopped ∈ ops →
      options.maxBytes ≤ 0 ∧ options.ttlAccess ≤ 0 ∧
        options.ttlCreate = ttlCreate)
    {now : Env}
    (past : ∀ env, .sweep env ∈ ops → env.now ≤ now.now)
    (works : now.fails store.db .readPaste = false)
    {entry : Paste × Bytes}
    (listed : entry ∈ (System.closed .fresh none).ledger ops)
    (live : entry.1.liveAt ttlCreate now.now = true) :
    get store.options now entry.1.code store.db = .ok entry := by
  obtain ⟨entered, keeps⟩ := entered_of_mem opens listed
  have inForce : ∀ upTo middle, (∀ op ∈ upTo, op ∈ entered.after) →
      entered.next.run upTo = .opened middle →
        middle.options.maxBytes ≤ 0 ∧ middle.options.ttlAccess ≤ 0 ∧
          middle.options.ttlCreate = ttlCreate := by
    intro upTo middle within isMiddle
    refine options_run_of_family entered.sound (fun options current => ?_)
      (fun options stopped opening =>
        rules options stopped (entered.within _ (within _ opening))) isMiddle
    cases entered.settings.symm.trans current
    obtain ⟨stopped, opening⟩ := entered.opened
    exact rules _ stopped opening
  have sameLibrary :
      store.options.codec.zstd = entered.options.codec.zstd := by
    obtain ⟨stopped, opening⟩ := exists_opening reached
    rw [(opens _ stopped opening).sameLibrary, keeps.sameLibrary]
  rcases entered.created.served_or_lost (keeps.sameLibrary ▸ inverts)
      entered.sound rfl (entered.reached.trans reached) sameLibrary works with
    served | ⟨accessedAt, -, hides⟩ |
      ⟨upTo, op, rest, middle, accessedAt, split, isMiddle, -, removes⟩
  · rw [served, ← entered.content]
  · obtain ⟨-, noAccess, same⟩ := inForce entered.after store
      (fun _ listed => listed) (entered.reached.trans reached)
    exact absurd hides
      (entered.created.not_hides_of_live noAccess (same ▸ live))
  · obtain ⟨uncapped, noAccess, same⟩ := inForce upTo middle
      (fun op listed => by
        rw [split]
        exact List.mem_append_left _ listed) isMiddle
    refine absurd removes (entered.created.not_removes_of_live uncapped noAccess
      (same ▸ live) ?_)
    rintro env rfl
    refine past env (entered.within _ ?_)
    rw [split]
    exact List.mem_append_right _ List.mem_cons_self

end Entries

/-- Over every run on a new file that is opened with one key, minimum length and
library, with any failures, flushes, sweeps, evictions and reopenings: a read
only ever answers an entry of the ledger, with its code and while it is live.
Without a cap and a last-access rule, and as long as no sweep has come from a
later instant, a read whose query does not fail is exactly the read of the
ledger. -/
theorem store_refines_ledger
    {base : Options}
    (inverts : base.codec.zstd.Inverts)
    {ops : List Op}
    (opens : ∀ options stopped, .openFile options stopped ∈ ops →
      base.KeepsPastes options)
    {store : OpenStore}
    (reached : (System.closed .fresh none).run ops = .opened store) :
    let ledger := (System.closed .fresh none).ledger ops
    (∀ now code paste content,
      (System.opened store).answer (.get now code) = .got paste content →
        (paste, content) ∈ ledger ∧ paste.code = code ∧
          paste.liveAt store.options.ttlCreate now.now = true) ∧
    ∀ ttlCreate,
      (∀ options stopped, .openFile options stopped ∈ ops →
        options.maxBytes ≤ 0 ∧ options.ttlAccess ≤ 0 ∧
          options.ttlCreate = ttlCreate) →
      ∀ (now : Env) code,
        (∀ env, .sweep env ∈ ops → env.now ≤ now.now) →
        now.fails store.db .readPaste = false →
          (System.opened store).answer (.get now code) =
            ledger.read ttlCreate now.now code := by
  intro ledger
  refine ⟨?_, ?_⟩
  · intro now code paste content answered
    obtain ⟨same, isSame, read⟩ := System.got_of_answer answered
    cases isSame
    obtain ⟨row, present, rfl, isVisible, -, -⟩ := get_eq_ok read
    obtain ⟨entry, listed, isCode, live, isFound⟩ :=
      System.exists_entry_of_row inverts opens reached present
    obtain rfl := isFound now _ read
    exact ⟨listed, isCode, live now.now isVisible⟩
  · intro ttlCreate rules now code past works
    apply Ledger.read_eq
    · intro entry listed sameCode live
      have served := System.entry_served inverts opens reached rules past works
        listed live
      rw [← sameCode, System.answer_get, served]
    · intro dead
      rw [System.answer_get_eq_failed_iff, get_eq_notFound_iff]
      refine Or.inr ⟨works, ?_⟩
      rintro row present rfl
      obtain ⟨entry, listed, isCode, live, -⟩ :=
        System.exists_entry_of_row inverts opens reached present
      obtain ⟨stopped, opening⟩ := System.exists_opening reached
      rw [(rules _ stopped opening).2.2] at live
      have isDead := dead entry listed isCode
      by_contra shown
      rw [live now.now (Bool.eq_true_of_not_eq_false shown)] at isDead
      cases isDead

/-- A paste and its ledger, with a sweep in between. -/
theorem store_refines_ledger_small :
    let ops : List Op := [.openFile Options.small none,
      .create (.calm 0) ⟨ascii "a", [], [], hour⟩,
      .takeAccess true, .flushAccess (.calm second), .sweep (.calm second)]
    ∃ store,
      (System.closed .fresh none).run ops = .opened store ∧
      (System.opened store).answer (.get (.calm (2 * second)) (ascii "0")) =
        ((System.closed .fresh none).ledger ops).read 0 (2 * second)
          (ascii "0") ∧
      (System.opened store).answer (.get (.calm hour) (ascii "0")) =
        ((System.closed .fresh none).ledger ops).read 0 hour (ascii "0") := by
  intro ops
  have described : ((System.closed .fresh none).run ops).answer
      (.metadata (.calm second) (ascii "0")) =
        .described ⟨1, ascii "0", [], [], 1, 1, 10, 0, some hour⟩ := by
    decide +kernel
  obtain ⟨store, reached, _⟩ := System.described_of_answer described
  have opens : ∀ options stopped, .openFile options stopped ∈ ops →
      options = Options.small := by
    intro options stopped listed
    simp only [ops, List.mem_cons, Op.openFile.injEq, reduceCtorEq,
      List.not_mem_nil, or_false] at listed
    exact listed.1
  have past : ∀ now : Int, second ≤ now → ∀ env, .sweep env ∈ ops →
      env.now ≤ now := by
    intro now later env listed
    simp only [ops, List.mem_cons, Op.sweep.injEq, reduceCtorEq,
      List.not_mem_nil, or_false, false_or] at listed
    rw [listed]
    exact later
  have rules : ∀ options stopped, .openFile options stopped ∈ ops →
      options.maxBytes ≤ 0 ∧ options.ttlAccess ≤ 0 ∧ options.ttlCreate = 0 := by
    intro options stopped listed
    rw [opens options stopped listed]
    decide
  have spec := store_refines_ledger
    (show Options.small.codec.zstd.Inverts from Compress.rawFrames_inverts)
    (fun options stopped listed => by
      rw [opens options stopped listed]
      exact ⟨rfl, rfl, rfl⟩) reached
  exact ⟨store, reached,
    spec.2 0 rules _ _ (past _ (by decide)) rfl,
    spec.2 0 rules _ _ (past _ (by decide)) rfl⟩

end Store
end Haste
