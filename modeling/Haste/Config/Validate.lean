import Haste.Config.Parse

/-!
# Which settings a server starts with

`Config.validate` checks the settings one after the other and answers the first
that is out of bounds.  Counts and sizes are 64-bit integers, so the products
that the limits are made of may wrap.
-/

namespace Haste
namespace Config

open Go

/-- `Config`: the settings that are checked. -/
structure Settings where
  readPool : Int64
  sqliteCacheMB : Int64
  maxChars : Int64
  zstdLevel : Int64
  maxBytes : Int64
  ttlAccess : Int64
  ttlCreate : Int64
  cleanupInterval : Int64
  writeConcurrency : Int64
  writeQueue : Int64
  codeMinLen : Int64
  rateRPS : FloatValue
  stats : Bytes
  statsToken : Bytes

/-- `MinZstdLevel`. -/
def minZstdLevel : Int64 := 1

/-- `MaxZstdLevel`. -/
def maxZstdLevel : Int64 := 22

/-- `MinMaxBytes`. -/
def minMaxBytes : Int64 := 1048576

/-- `MinStatsTokenLen`. -/
def minStatsTokenLen : Nat := 16

/-- `StatsOff`. -/
def statsOff : Bytes := ascii "off"

/-- `StatsToken`. -/
def statsToken : Bytes := ascii "token"

/-- `StatsPublic`. -/
def statsPublic : Bytes := ascii "public"

/-- `id.MaxLen`. -/
def maxCodeLen : Int64 := 10

/-- `bytesPerChar`. -/
def bytesPerChar : Int64 := 12

/-- An integer as `%d` writes it. -/
def decimal (number : Int64) : Bytes := ascii (toString number.toInt)

/-- An integer setting that is out of bounds, with what it has to be. -/
def outOfBounds (name bounds : String) (number : Int64) : Bytes :=
  ascii "config: " ++ ascii name ++ ascii " must be " ++ ascii bounds ++
    ascii ", got " ++ decimal number

/-- A setting that must not be negative. -/
def negative (name : String) : Bytes :=
  ascii "config: " ++ ascii name ++ ascii " must not be negative"

namespace Settings

variable (c : Settings)

/-- `Config.minStorageBytes`. -/
def minStorageBytes : Int64 :=
  let floor := c.maxChars * 4
  if floor < minMaxBytes then minMaxBytes else floor

/-- `Config.MaxBodyBytes`. -/
def maxBodyBytes : Int64 := c.maxChars * bytesPerChar + 4096

/-- The cases of `Config.validate`, each with the text of its error, given how
`%q` writes a string. -/
def checks (quoted : Bytes → Bytes) : List (Bool × Bytes) :=
  [(c.maxChars < 1, outOfBounds "HASTE_MAX_CHARS" ">= 1" c.maxChars),
    (c.zstdLevel < minZstdLevel || maxZstdLevel < c.zstdLevel,
      outOfBounds "HASTE_ZSTD_LEVEL" "1-22" c.zstdLevel),
    (c.sqliteCacheMB < 1,
      outOfBounds "HASTE_SQLITE_CACHE_MB" ">= 1" c.sqliteCacheMB),
    (c.readPool < 1, outOfBounds "HASTE_READ_POOL" ">= 1" c.readPool),
    (c.codeMinLen < 1 || maxCodeLen < c.codeMinLen,
      outOfBounds "HASTE_CODE_MIN_LEN" "1-10" c.codeMinLen),
    (c.maxBytes < 0, negative "HASTE_MAX_BYTES"),
    (0 < c.maxBytes && c.maxBytes < c.minStorageBytes,
      ascii "config: HASTE_MAX_BYTES must be 0 or at least " ++
        decimal c.minStorageBytes ++ ascii " bytes for a " ++
        decimal c.maxChars ++ ascii " character limit, got " ++
        decimal c.maxBytes),
    (c.ttlAccess < 0, negative "HASTE_TTL_ACCESS"),
    (c.ttlCreate < 0, negative "HASTE_TTL_CREATE"),
    (c.stats != statsOff && c.stats != Config.statsToken &&
        c.stats != statsPublic,
      ascii "config: HASTE_STATS must be off, token or public, got " ++
        quoted c.stats),
    (c.stats == Config.statsToken && c.statsToken.length < minStatsTokenLen,
      ascii "config: HASTE_STATS=token needs a HASTE_STATS_TOKEN of at least " ++
        ascii (toString minStatsTokenLen) ++ ascii " characters"),
    (c.cleanupInterval ≤ 0,
      ascii "config: HASTE_CLEANUP_INTERVAL must be > 0"),
    (c.writeConcurrency < 0, negative "HASTE_WRITE_CONCURRENCY"),
    (c.writeQueue < 0, negative "HASTE_WRITE_QUEUE"),
    (c.rateRPS.isNegative, negative "HASTE_RATE_RPS")]

/-- `Config.validate`: the first case that applies. -/
def validate (quoted : Bytes → Bytes) : Except Bytes Unit :=
  match (c.checks quoted).find? fun check => check.1 with
  | some check => .error check.2
  | none => .ok ()

/-- What `Load` sets on a machine with four processors when nothing is
configured. -/
def standard : Settings where
  readPool := 4
  sqliteCacheMB := 48
  maxChars := 40000
  zstdLevel := 19
  maxBytes := 1073741824
  ttlAccess := 0
  ttlCreate := 0
  cleanupInterval := 3600000000000
  writeConcurrency := 4
  writeQueue := 512
  codeMinLen := 8
  rateRPS := .finite 1
  stats := statsOff
  statsToken := []

example (quoted : Bytes → Bytes) : standard.validate quoted = .ok () := by
  rfl

/-- A configuration is accepted when no case applies. -/
theorem validate_eq_ok_iff {c : Settings} {quoted : Bytes → Bytes} :
    c.validate quoted = .ok () ↔ ∀ check ∈ c.checks quoted, check.1 = false := by
  unfold validate
  cases found : (c.checks quoted).find? fun check => check.1 with
  | none => simpa using List.find?_eq_none.mp found
  | some check =>
      simp only [reduceCtorEq, false_iff, not_forall]
      refine ⟨check, List.mem_of_find?_eq_some found, ?_⟩
      simpa using List.find?_some found

/-- A server that starts has a character limit, and a byte cap that is zero or
holds one paste. -/
theorem limits_of_validate
    {c : Settings}
    {quoted : Bytes → Bytes}
    (accepted : c.validate quoted = .ok ()) :
    1 ≤ c.maxChars ∧ 0 ≤ c.maxBytes ∧
      (c.maxBytes ≤ 0 ∨ c.minStorageBytes ≤ c.maxBytes) := by
  have passed := validate_eq_ok_iff.mp accepted
  simp only [checks, List.forall_mem_cons, decide_eq_false_iff_not,
    Int64.not_lt, Bool.and_eq_false_iff] at passed
  obtain ⟨chars, -, -, -, -, notNegative, floor, -⟩ := passed
  exact ⟨chars, notNegative, floor⟩

/-! ## Products of the character limit -/

/-- The limit on bodies does not wrap where it fits. -/
theorem toInt_maxBodyBytes
    {c : Settings}
    (nonneg : 0 ≤ c.maxChars.toInt)
    (fits : 12 * c.maxChars.toInt + 4096 < 2 ^ 63) :
    c.maxBodyBytes.toInt = 12 * c.maxChars.toInt + 4096 := by
  have factor : bytesPerChar.toInt = 12 := by decide
  have headroom : (4096 : Int64).toInt = 4096 := by decide
  have product : (c.maxChars.toInt * 12).bmod (2 ^ 64) = c.maxChars.toInt * 12 :=
    Int.bmod_eq_of_le (by omega) (by omega)
  rw [maxBodyBytes, Int64.toInt_add, Int64.toInt_mul, factor, headroom, product,
    Int.bmod_eq_of_le (by omega) (by omega)]
  omega

/-- Nor does the floor of the cap, which is then at least four bytes for each
character. -/
theorem le_toInt_minStorageBytes
    {c : Settings}
    (nonneg : 0 ≤ c.maxChars.toInt)
    (fits : 4 * c.maxChars.toInt < 2 ^ 63) :
    4 * c.maxChars.toInt ≤ c.minStorageBytes.toInt := by
  have four : (4 : Int64).toInt = 4 := by decide
  have product : (c.maxChars * 4).toInt = 4 * c.maxChars.toInt := by
    rw [Int64.toInt_mul, four, Int.bmod_eq_of_le (by omega) (by omega), mul_comm]
  unfold minStorageBytes
  simp only
  split
  case isTrue small =>
    rw [Int64.lt_iff_toInt_lt, product] at small
    exact small.le
  case isFalse => exact product.ge

/-- The limits of a configuration are the true products: the one on bodies is
twelve bytes for each character and some more, and a cap has room for four bytes
for each. -/
structure ExactLimits (c : Settings) : Prop where
  body : c.maxBodyBytes.toInt = 12 * c.maxChars.toInt + 4096
  floor : c.maxBytes = 0 ∨ 4 * c.maxChars.toInt ≤ c.maxBytes.toInt

/-- The cap of an accepted configuration has room for one paste if there is no
cap or the product fits. -/
theorem floor_iff
    {c : Settings}
    {quoted : Bytes → Bytes}
    (accepted : c.validate quoted = .ok ()) :
    (c.maxBytes = 0 ∨ 4 * c.maxChars.toInt ≤ c.maxBytes.toInt) ↔
      c.maxBytes = 0 ∨ 4 * c.maxChars.toInt < 2 ^ 63 := by
  obtain ⟨chars, notNegative, floor⟩ := limits_of_validate accepted
  have one : (1 : Int64).toInt = 1 := by decide
  rw [Int64.le_iff_toInt_le, one] at chars
  apply or_congr_right'
  intro capped
  constructor
  · exact fun room => room.trans_lt (Int64.toInt_lt _)
  · intro fits
    have positive : ¬c.maxBytes ≤ 0 := fun none =>
      capped (Int64.le_antisymm none notNegative)
    have above := Int64.le_iff_toInt_le.mp (floor.resolve_left positive)
    exact (le_toInt_minStorageBytes (by omega) fits).trans above

/-- **The limits that follow from the character limit.**  An accepted
configuration has exact limits if and only if the limit on bodies fits 64 bits;
its cap has room for one paste already if four bytes for each character fit; and
as far as the limit on bodies fits, it grows with the character limit. -/
theorem exactLimits_iff
    {c : Settings}
    {quoted : Bytes → Bytes}
    (accepted : c.validate quoted = .ok ()) :
    (c.ExactLimits ↔ 12 * c.maxChars.toInt + 4096 < 2 ^ 63) ∧
    ((c.maxBytes = 0 ∨ 4 * c.maxChars.toInt ≤ c.maxBytes.toInt) ↔
      c.maxBytes = 0 ∨ 4 * c.maxChars.toInt < 2 ^ 63) ∧
    ∀ larger : Settings, c.maxChars ≤ larger.maxChars →
      12 * larger.maxChars.toInt + 4096 < 2 ^ 63 →
      c.maxBodyBytes ≤ larger.maxBodyBytes := by
  obtain ⟨chars, -⟩ := limits_of_validate accepted
  have one : (1 : Int64).toInt = 1 := by decide
  rw [Int64.le_iff_toInt_le, one] at chars
  refine ⟨⟨fun exact => ?_, fun fits => ?_⟩, floor_iff accepted, ?_⟩
  · rw [← exact.body]
    exact Int64.toInt_lt _
  · exact ⟨toInt_maxBodyBytes (by omega) fits,
      (floor_iff accepted).mpr (Or.inr (by omega))⟩
  · intro larger raised fits
    rw [Int64.le_iff_toInt_le] at raised ⊢
    rw [toInt_maxBodyBytes (by omega) fits, toInt_maxBodyBytes (by omega) (by omega)]
    omega

/-- The limits of the standard configuration. -/
theorem exactLimits_standard : standard.ExactLimits :=
  ((exactLimits_iff (rfl : standard.validate id = .ok ())).1).mpr (by decide)

/-- With a limit of 2 ^ 62 characters the configuration is accepted, bodies may
have no more than 4096 bytes, and the floor of the cap is a constant. -/
theorem unlimited_chars_wrap :
    let c := { standard with maxChars := 4611686018427387904 }
    (∀ quoted, c.validate quoted = .ok ()) ∧
    c.maxBodyBytes = 4096 ∧ c.maxBodyBytes < standard.maxBodyBytes ∧
    c.minStorageBytes = minMaxBytes ∧ ¬c.ExactLimits := by
  intro c
  have floor : c.minStorageBytes = minMaxBytes := by decide
  refine ⟨fun quoted => ?_, by decide, by decide, floor, fun exact => ?_⟩
  · rw [validate_eq_ok_iff]
    simp only [checks, floor, List.forall_mem_cons]
    exact ⟨rfl, rfl, rfl, rfl, rfl, rfl, by decide, rfl, rfl, rfl, rfl, rfl, rfl,
      rfl, rfl, by simp⟩
  · exact absurd exact.body (by decide)

end Settings

end Config
end Haste
