import Haste.Go.Numbers
import Haste.Go.Time
import Mathlib.Data.Int.Log
import Mathlib.Data.Rat.Floor

/-!
# Floating-point arithmetic

A `float64` operation answers the value next to the exact result.  A product of a
size or a duration with its unit is one such operation.  `Duration.Minutes` and
`Duration.Hours` add the whole units and the fraction that is left, each a
`float64`; far from zero the sum can reach the next whole unit.
-/

namespace Haste
namespace Go

/-- The integer next to a number, of two the even one. -/
def roundEven (value : ℚ) : Int :=
  let below := ⌊value⌋
  if value - below < 1 / 2 then below
  else if 1 / 2 < value - below then below + 1
  else below + below % 2

/-- The `float64` next to a number below `floatBound`: of 53 binary digits, or of
those down to the last place there is. -/
def float64 (value : ℚ) : ℚ :=
  let place : ℚ := 2 ^ max (Int.log 2 |value| - 52) (-1074)
  roundEven (value / place) * place

/-- The value an operation answers whose exact result is this number. -/
def FloatValue.nearest (value : ℚ) : FloatValue :=
  if |value| < floatBound then .finite (float64 value) else .infinite (value < 0)

/-- The product with a positive integer that is a `float64`. -/
def FloatValue.scale (number : FloatValue) (factor : Nat) : FloatValue :=
  match number with
  | .finite value => .nearest (value * factor)
  | other => other

/-- The integer part of a quotient is the quotient of integers. -/
theorem truncate_div
    {numerator denominator : Int}
    (nonneg : 0 ≤ numerator)
    (positive : 0 < denominator) :
    truncate ((numerator : ℚ) / denominator) = numerator / denominator := by
  have isNonneg : (0 : ℚ) ≤ (numerator : ℚ) / denominator :=
    div_nonneg (by exact_mod_cast nonneg) (by exact_mod_cast positive.le)
  obtain ⟨divisor, rfl⟩ := Int.eq_ofNat_of_zero_le positive.le
  rw [truncate, Int.tdiv_eq_ediv_of_nonneg (Rat.num_nonneg.mpr isNonneg),
    ← Rat.floor_def']
  exact Rat.floor_intCast_div_natCast numerator divisor

/-- A number less than half away from an integer is rounded to it. -/
theorem roundEven_of_close
    {value : ℚ}
    {integer : Int}
    (close : |value - integer| < 1 / 2) :
    roundEven value = integer := by
  obtain ⟨low, high⟩ := abs_lt.mp close
  unfold roundEven
  rcases le_or_gt (integer : ℚ) value with above | below
  · have floor : ⌊value⌋ = integer :=
      Int.floor_eq_iff.mpr ⟨above, by linarith⟩
    simp only [floor]
    exact if_pos high
  · have floor : ⌊value⌋ = integer - 1 :=
      Int.floor_eq_iff.mpr ⟨by push_cast; linarith, by push_cast; linarith⟩
    simp only [floor, Int.cast_sub, Int.cast_one]
    rw [if_neg (by linarith), if_pos (by linarith)]
    exact sub_add_cancel integer 1

@[simp] theorem roundEven_intCast (value : Int) : roundEven value = value :=
  roundEven_of_close (by simp)

/-- A whole number of at most 53 binary digits is a `float64`. -/
theorem float64_intCast {value : Int} (small : |value| < 2 ^ 53) :
    float64 value = value := by
  have atMost : Int.log 2 |(value : ℚ)| ≤ 52 := by
    by_cases zero : value = 0
    · simp [zero]
    · have positive : 0 < |(value : ℚ)| := by positivity
      have below : |(value : ℚ)| < ((2 : Nat) : ℚ) ^ (53 : Int) := by
        exact_mod_cast small
      have strict := (Int.lt_zpow_iff_log_lt (by decide) positive).mp below
      omega
  obtain ⟨places, isPlaces⟩ := Int.eq_ofNat_of_zero_le (sub_nonneg.mpr atMost)
  have normal : -1074 ≤ Int.log 2 |(value : ℚ)| - 52 := by
    have nonneg : 0 ≤ Int.log 2 |(value : ℚ)| := by
      by_cases zero : value = 0
      · simp [zero]
      · refine (Int.zpow_le_iff_le_log (by decide) ?_).mp ?_
        · positivity
        · rw [zpow_zero]
          exact_mod_cast Int.one_le_abs zero
    omega
  have place : (2 : ℚ) ^ max (Int.log 2 |(value : ℚ)| - 52) (-1074) =
      (2 ^ places)⁻¹ := by
    rw [max_eq_left normal, ← neg_sub, isPlaces, zpow_neg]
    simp
  have whole : (value : ℚ) / (2 ^ places)⁻¹ = ((value * 2 ^ places : Int) : ℚ) := by
    push_cast
    rw [div_inv_eq_mul]
  unfold float64
  simp only [place]
  rw [whole, roundEven_intCast]
  push_cast
  rw [mul_assoc, mul_inv_cancel₀ (by positivity), mul_one]

/-- A negative number less than one below a negated power of two, from 2 ^ 53 on, is
rounded to it. -/
theorem float64_of_close
    {value : ℚ}
    {exponent : Nat}
    (large : 53 ≤ exponent)
    (atLeast : 2 ^ exponent ≤ -value)
    (close : -value < 2 ^ exponent + 1) :
    float64 value = -2 ^ exponent := by
  obtain ⟨places, rfl⟩ := Nat.exists_eq_add_of_le large
  have positive : 0 < -value := lt_of_lt_of_le (by positivity) atLeast
  have log : Int.log 2 |value| = (53 + places : Nat) := by
    rw [abs_of_neg (neg_pos.mp positive)]
    apply le_antisymm
    · have doubled : -value < ((2 : Nat) : ℚ) ^ ((53 + places : Nat) + 1 : Int) := by
        rw [zpow_add_one₀ (by norm_num), zpow_natCast]
        have one : (1 : ℚ) ≤ 2 ^ (53 + places) := one_le_pow₀ (by norm_num)
        push_cast
        linarith
      have strict := (Int.lt_zpow_iff_log_lt (by decide) positive).mp doubled
      omega
    · refine (Int.zpow_le_iff_le_log (by decide) positive).mp ?_
      rw [zpow_natCast]
      exact_mod_cast atLeast
  have place : (2 : ℚ) ^ max (Int.log 2 |value| - 52) (-1074) = 2 ^ (places + 1) := by
    rw [log, max_eq_left (by omega),
      show ((53 + places : Nat) : Int) - 52 = (places + 1 : Nat) by omega,
      zpow_natCast]
  have power : (2 : ℚ) ^ (53 + places) = 2 ^ 52 * 2 ^ (places + 1) := by
    rw [← pow_add]
    congr 1
    omega
  have wide : (2 : ℚ) ≤ 2 ^ (places + 1) :=
    le_self_pow₀ (by norm_num) (Nat.succ_ne_zero _)
  have near : |value / 2 ^ (places + 1) - (-2 ^ 52 : Int)| < 1 / 2 := by
    have above : 2 ^ 52 ≤ -value / 2 ^ (places + 1) :=
      (le_div_iff₀ (by positivity)).mpr (power ▸ atLeast)
    have below : -value / 2 ^ (places + 1) < 2 ^ 52 + 1 / 2 := by
      rw [div_lt_iff₀ (by positivity)]
      linarith
    rw [neg_div] at above below
    push_cast
    exact abs_lt.mpr ⟨by linarith, by linarith⟩
  unfold float64
  simp only [place]
  rw [roundEven_of_close near, power]
  push_cast
  exact neg_mul _ _

/-- `Duration.Minutes` and `Duration.Hours`, by their unit, where every result is
rounded in this way. -/
def durationBy (round : ℚ → ℚ) (unit duration : Int) : ℚ :=
  round (round (duration.tdiv unit) + round (round (duration.tmod unit) / unit))

/-- `Duration.Minutes` and `Duration.Hours`, by their unit. -/
def durationIn (unit duration : Int) : ℚ := durationBy float64 unit duration

example : durationIn hour (90 * minute) = 3 / 2 := by decide +kernel

-- A nanosecond short of 2500000 hours.
example : durationIn hour (2500000 * hour - 1) = 2500000 := by decide +kernel

end Go
end Haste
