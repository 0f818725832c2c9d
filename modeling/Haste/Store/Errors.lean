import Haste.Compress.Codec
import Haste.Go.Time
import Haste.Id.Slug

/-!
# What a store call answers instead of a result

The lifetimes a paste may ask for, the statements a database may refuse, and
the errors of the store with their texts.
-/

namespace Haste
namespace Store

open Go

/-! ## Lifetimes -/

/-- `NoExpiry`. -/
def noExpiry : Int := 0

/-- `TTLOptions`, the only lifetimes a paste may ask for. -/
def ttlOptions : List Int :=
  [hour, 6 * hour, 12 * hour, 24 * hour, 3 * 24 * hour, 7 * 24 * hour,
    14 * 24 * hour, 30 * 24 * hour]

/-- `AllowedTTL`. -/
def allowedTTL (ttl : Int) : Bool :=
  if ttl = noExpiry then true else ttlOptions.contains ttl

/-- `ttlList`: the options the way the picker labels them. -/
def ttlList : String :=
  String.intercalate ", " (ttlOptions.map fun ttl =>
    let hours := ttl / hour
    if hours % 24 = 0 then toString (hours / 24) ++ "d"
    else toString hours ++ "h")

/-- Every lifetime on the ladder is accepted, and none of them is the mark of
no lifetime. -/
theorem allowedTTL_iff (ttl : Int) :
    allowedTTL ttl = true ↔ ttl = noExpiry ∨ ttl ∈ ttlOptions := by
  unfold allowedTTL
  by_cases none : ttl = noExpiry <;> simp [none]

/-- An accepted lifetime is a whole, non-negative number of seconds. -/
theorem allowedTTL_seconds
    {ttl : Int}
    (allowed : allowedTTL ttl = true) :
    ∃ seconds, 0 ≤ seconds ∧ ttl = seconds * second := by
  refine ⟨ttl / second, ?_⟩
  rcases (allowedTTL_iff ttl).mp allowed with rfl | listed
  · decide
  · simp only [ttlOptions, List.mem_cons, List.not_mem_nil, or_false] at listed
    rcases listed with rfl | rfl | rfl | rfl | rfl | rfl | rfl | rfl <;> decide

/-! ## Errors -/

/-- The rules of a sweep that delete by a condition on the row. -/
inductive Rule
  | lifetime
  | access
  | creation
  deriving DecidableEq, Repr

/-- The steps of a call that reach the database. -/
inductive Statement
  | beginWrite
  | beginFlush
  | beginSweep
  | prepareFlush
  | flushAccess (seq : Nat) (accessedAt : Int)
  | readStoredBytes
  | updateStoredBytes (delta : Int)
  | evict (need : Int)
  | delete (rule : Rule)
  | allocateSequence
  | insertPaste
  | commitPaste
  | commitFlush
  | commitSweep
  | checkpoint
  | optimize
  | readPaste
  | readMetadata
  deriving DecidableEq, Repr

/-- What the error of a failed statement starts with. -/
def Statement.context : Statement → String
  | .beginWrite => "store: begin write"
  | .beginFlush => "store: begin access flush"
  | .beginSweep => "store: begin sweep"
  | .prepareFlush => "store: prepare access flush"
  | .flushAccess _ _ => "store: flush access time"
  | .readStoredBytes => "store: read stored bytes"
  | .updateStoredBytes _ => "store: update stored bytes"
  | .evict _ => "store: evict"
  | .delete _ => "store: delete expired rows"
  | .allocateSequence => "store: allocate sequence"
  | .insertPaste => "store: insert paste"
  | .commitPaste => "store: commit paste"
  | .commitFlush => "store: commit access flush"
  | .commitSweep => "store: commit sweep"
  | .checkpoint => "store: checkpoint after sweep"
  | .optimize => "store: optimize after sweep"
  | .readPaste => "store: read paste"
  | .readMetadata => "store: read paste metadata"

/-- Why a statement fails: something outside the data (the disk, the lock, a
cancelled context), a result beyond 64 bits, or a unique column. -/
inductive Cause
  | environment
  | integerOverflow
  | duplicateSeq
  | duplicateCode
  deriving DecidableEq, Repr

/-- `MaxTitleChars`. -/
def maxTitleChars : Nat := 15

/-- The errors of the store. -/
inductive Error
  /-- `ErrNotFound` -/
  | notFound
  /-- `ErrEmpty` -/
  | empty
  /-- `ErrTooLarge` -/
  | tooLarge (chars limit : Int)
  /-- `ErrNoRoom` -/
  | noRoom (size limit : Int)
  /-- `ErrBadTitle`, for its length -/
  | titleTooLong (chars : Nat)
  /-- `ErrBadTitle`, for a control character -/
  | titleControl
  /-- `ErrBadTTL` -/
  | badTTL
  /-- `ErrBusy` -/
  | busy
  /-- The error of a cancelled context -/
  | cancelled
  | statement (statement : Statement) (cause : Cause)
  | id (error : Id.Error)
  | codec (error : Compress.Error)
  /-- A loop was granted too few rounds; no call answers it. -/
  | diverged
  deriving DecidableEq, Repr

/-- The text of an error, up to the cause the database gives. -/
def Error.message : Error → String
  | .notFound => "store: paste not found"
  | .empty => "store: paste is empty"
  | .tooLarge chars limit =>
      "store: paste exceeds character limit: " ++ toString chars ++ " > " ++
        toString limit
  | .noRoom size limit =>
      "store: paste does not fit within the storage cap: " ++ toString size ++
        " > " ++ toString limit
  | .titleTooLong chars =>
      "store: unusable title: " ++ toString chars ++ " characters, limit is " ++
        toString maxTitleChars
  | .titleControl =>
      "store: unusable title: control characters are not allowed"
  | .badTTL => "store: unsupported lifetime: must be 0 or one of " ++ ttlList
  | .busy => "store: write queue is full"
  | .cancelled => "context canceled"
  | .statement failed _ => failed.context
  | .id cause => cause.message
  | .codec cause => cause.message
  | .diverged => "store: loop has not ended"

end Store
end Haste
