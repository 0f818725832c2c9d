import Haste.Store.Frame
import Haste.Store.Retention

/-!
# Retired pastes before live ones

A row whose own lifetime has run out should be deleted before a live row makes
room.  A sweep deletes all such rows first.  A `Create` evicts in the order of
access times and does not look at lifetimes, so whether a retired row outlasts a
live one depends on the sizes of the rows before them in that order.
-/

namespace Haste
namespace Store

open Go
open Foundation

/-- The total size of the rows before a row in least-recently-used order. -/
def Pastes.bytesBefore (pastes : Pastes) (row : Row) : Nat :=
  Cover.total Row.bytes (pastes.lruOrder.takeWhile fun other => other != row)

/-- The bytes that a row of this size lacks under the cap. -/
def Database.need (db : Database) (maxBytes : Int) (size : Nat) : Int :=
  if 0 < maxBytes then db.storedBytes + size - maxBytes else 0

theorem Database.mem_evicted_iff
    {db : Database}
    {maxBytes : Int}
    {size : Nat}
    {row : Row} :
    row ∈ db.evicted maxBytes size ↔
      row ∈ db.pastes.rows ∧
        (db.pastes.bytesBefore row : Int) < db.need maxBytes size := by
  unfold evicted need
  split
  · rw [Pastes.lruPrefix, Cover.mem_cover_iff, Pastes.mem_lruOrder,
      Int.lt_toNat, Pastes.bytesBefore]
  · constructor
    · intro listed
      cases listed
    · rintro ⟨_, negative⟩
      omega

/-- A live row has gone only if no retired row is left. -/
def Database.RetiredFirst (db next : Database) (now : Int) : Prop :=
  (∃ row ∈ db.pastes.rows, row.expired now = false ∧
      ∀ left ∈ next.pastes.rows, left.seq ≠ row.seq) →
    ∀ left ∈ next.pastes.rows, left.expired now = false

/-- Where a live row is within reach of the need, every retired one is too. -/
def Database.RetiredWithinReach
    (db : Database)
    (maxBytes : Int)
    (size : Nat)
    (now : Int) : Prop :=
  ∀ live ∈ db.pastes.rows, ∀ retired ∈ db.pastes.rows,
    live.expired now = false →
    retired.expired now = true →
    (db.pastes.bytesBefore live : Int) < db.need maxBytes size →
    (db.pastes.bytesBefore retired : Int) < db.need maxBytes size

/-! ## What a write does -/

section Created

variable
  {options : Options}
  {env : Env}
  {request : Request}
  {db next : Database}
  {paste : Paste}
  (created : Created options env request db paste next)
include created

/-- A new row is live. -/
theorem Created.unexpired (body : Bytes) (codec : Int) :
    (paste.row body codec).expired env.now = false := by
  rw [← Bool.not_eq_true, Row.expired_iff, not_not]
  intro expires expiring
  rw [created.metadata] at expiring
  simp only [Paste.row, draft, Option.mem_def, Option.map_eq_some_iff,
    Option.ite_none_right_eq_some, Option.some.injEq] at expiring
  obtain ⟨_, ⟨positive, rfl⟩, rfl⟩ := expiring
  obtain ⟨seconds, _, whole⟩ :=
    allowedTTL_seconds (checkRequest_eq_ok created.accepted).2
  rw [whole] at positive ⊢
  rw [unix_add_seconds]
  simp only [unix, truncateToSecond, second] at positive ⊢
  omega

/-- A new row has a sequence number of its own. -/
theorem Created.seq_ne
    (numbered : db.Numbered)
    {row : Row}
    (present : row ∈ db.pastes.rows) :
    paste.seq ≠ row.seq :=
  ((numbered row present).trans_lt created.allocated.above).ne'

/-- A row has gone exactly when it is within reach of the need. -/
theorem Created.gone_iff
    (numbered : db.Numbered)
    {row : Row}
    (present : row ∈ db.pastes.rows) :
    (∀ left ∈ next.pastes.rows, left.seq ≠ row.seq) ↔
      (db.pastes.bytesBefore row : Int) < db.need options.maxBytes
        (options.codec.compress request.content).1.length := by
  have rows := created.addsOnly.rows
  constructor
  · intro gone
    by_contra beyond
    have kept : row ∈ next.pastes.rows := by
      rw [rows]
      refine List.mem_append_left _ (List.mem_filter.mpr ⟨present, ?_⟩)
      rw [Bool.not_eq_true', List.contains_eq_mem, decide_eq_false_iff_not,
        Database.mem_evicted_iff]
      exact fun evicted => beyond evicted.2
    exact gone row kept rfl
  · intro reach left leftPresent same
    rw [rows, List.mem_append, List.mem_singleton] at leftPresent
    rcases leftPresent with old | rfl
    · obtain ⟨oldPresent, spared⟩ := List.mem_filter.mp old
      obtain rfl := Pastes.eq_of_seq_eq oldPresent present same
      rw [Bool.not_eq_true', List.contains_eq_mem, decide_eq_false_iff_not,
        Database.mem_evicted_iff] at spared
      exact spared ⟨present, reach⟩
    · exact created.seq_ne numbered present same

/-- No live row goes while a retired one stays exactly when every retired row is
within reach where a live one is. -/
theorem Created.retiredFirst_iff (numbered : db.Numbered) :
    db.RetiredFirst next env.now ↔
      db.RetiredWithinReach options.maxBytes
        (options.codec.compress request.content).1.length env.now := by
  constructor
  · intro first live livePresent retired retiredPresent isLive isRetired reach
    rw [← created.gone_iff numbered retiredPresent]
    intro left leftPresent same
    have goneLive := (created.gone_iff numbered livePresent).mpr reach
    have isLeft := first ⟨live, livePresent, isLive, goneLive⟩ left leftPresent
    rw [created.addsOnly.rows, List.mem_append, List.mem_singleton]
      at leftPresent
    rcases leftPresent with old | rfl
    · obtain rfl := Pastes.eq_of_seq_eq (List.mem_filter.mp old).1
        retiredPresent same
      rw [isLeft] at isRetired
      cases isRetired
    · exact created.seq_ne numbered retiredPresent same
  · rintro within ⟨live, livePresent, isLive, goneLive⟩ left leftPresent
    have reach := (created.gone_iff numbered livePresent).mp goneLive
    by_contra notLive
    have isRetired := Bool.eq_true_of_not_eq_false notLive
    have stays := leftPresent
    rw [created.addsOnly.rows, List.mem_append, List.mem_singleton]
      at leftPresent
    rcases leftPresent with old | rfl
    · have oldPresent := (List.mem_filter.mp old).1
      exact (created.gone_iff numbered oldPresent).mpr
        (within live livePresent left oldPresent isLive isRetired reach) left
        stays rfl
    · rw [created.unexpired] at isRetired
      cases isRetired

end Created

/-- In every state a run from a new file reaches: a `Create` lets no live row go
while a retired one stays exactly when every retired row is within reach of the
need where a live one is, and a sweep leaves no retired row at all. -/
theorem retired_go_first
    {before : List Op}
    {store : OpenStore}
    (reached : (System.closed .fresh none).run before = .opened store) :
    (∀ env request paste,
      (System.opened store).answer (.create env request) = .created paste →
      (store.db.RetiredFirst
          ((System.opened store).step (.create env request)).content env.now ↔
        store.db.RetiredWithinReach store.options.maxBytes
          (store.options.codec.compress request.content).1.length env.now)) ∧
    ∀ env result error,
      (System.opened store).answer (.sweep env) = .swept result error →
      store.db.RetiredFirst
        ((System.opened store).step (.sweep env)).content env.now := by
  have sound : (System.opened store).Sound :=
    System.accounted_of_run (System.sound_closed .fresh none) reached
  have numbered := System.numbered_run before
  rw [reached] at numbered
  constructor
  · intro env request paste answered
    obtain ⟨same, db, isSame, stepped, created⟩ :=
      System.created_of_answer sound answered
    cases isSame
    rw [stepped]
    exact created.retiredFirst_iff numbered
  · intro env result error answered
    obtain ⟨_, _, _, stepped⟩ := System.step_of_swept sound answered
    rw [stepped]
    intro _ left leftPresent
    exact (Database.mem_swept_iff.mp leftPresent).2.unexpired

/-! ## A live row that makes room for a new one -/

/-- Options with room for two texts of ten bytes. -/
def Options.roomForTwo : Options :=
  { Options.small with
    maxBytes := 25
    maxBytes_lt := by decide }

/-- Open a new file, store a text, and a second later a text for an hour. -/
def storeTwo : List Op :=
  [.openFile Options.roomForTwo none,
    .create (.calm (ofUnix 100)) Request.small,
    .create (.calm (ofUnix 101)) { Request.small with ttl := hour }]

/-- While both rows are live, the older one makes room for a third. -/
theorem retired_go_first_live :
    ∃ store,
      (System.closed .fresh none).run storeTwo = .opened store ∧
      store.db.RetiredFirst
        ((System.opened store).step
          (.create (.calm (ofUnix 102)) Request.small)).content
        (ofUnix 102) := by
  obtain ⟨store, reached, answered, within⟩ : ∃ store,
      (System.closed .fresh none).run storeTwo = .opened store ∧
      ((System.opened store).answer
        (.create (.calm (ofUnix 102)) Request.small)).commits = true ∧
      ∀ retired ∈ store.db.pastes.rows,
        retired.expired (ofUnix 102) = false :=
    ⟨_, rfl, by decide +kernel, by decide +kernel⟩
  obtain ⟨paste, created⟩ := System.exists_created_of_commits answered
  refine ⟨store, reached,
    ((retired_go_first reached).1 _ _ paste created).mpr ?_⟩
  intro _ _ retired present _ isRetired
  cases (within retired present).symm.trans isRetired

/-- An hour later, with no sweep in between, the second text has retired, and a
third one still takes the place of the first. -/
theorem live_row_evicted :
    let store := (System.closed .fresh none).run storeTwo
    let write : Op := .create (.calm (ofUnix 4000)) Request.small
    (store.answer write).commits = true ∧
    ¬store.content.RetiredFirst (store.step write).content (ofUnix 4000) := by
  intro store write
  refine ⟨by decide +kernel, ?_⟩
  intro first
  have gone : ∃ row ∈ store.content.pastes.rows,
      row.expired (ofUnix 4000) = false ∧
        ∀ left ∈ (store.step write).content.pastes.rows,
          left.seq ≠ row.seq := by
    decide +kernel
  have stays : ¬∀ left ∈ (store.step write).content.pastes.rows,
      left.expired (ofUnix 4000) = false := by
    decide +kernel
  exact stays (first gone)

end Store
end Haste
