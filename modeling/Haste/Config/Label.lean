import Haste.Config.Validate

/-!
# The storage cap as it is logged

A server that starts to listen logs its cap with a binary unit.  The unit is
looked up by the number of divisions that bring the cap below 1024, in a table
that ends at 1024 ^ 4, while neither the parser nor the validator bounds the cap.
-/

namespace Haste
namespace Config

open Go

/-- The loop of `byteLabel` over the quotient. -/
def divideUnits (v div exp : Nat) : Nat × Nat :=
  if 1024 ≤ v then divideUnits (v / 1024) (div * 1024) (exp + 1) else (div, exp)
termination_by v

/-- A quotient rounded to the nearest integer, to the even one of two. -/
def roundToEven (numerator denominator : Nat) : Nat :=
  let quotient := numerator / denominator
  let twice := 2 * (numerator % denominator)
  if twice < denominator ∨ twice = denominator ∧ quotient % 2 = 0 then quotient
  else quotient + 1

/-- A quotient as `%.1f` writes it. -/
def oneDecimal (numerator denominator : Nat) : Bytes :=
  let tenths := roundToEven (numerator * 10) denominator
  itoa (tenths / 10) ++ ascii "." ++ itoa (tenths % 10)

/-- `byteLabel`, which panics when the unit is not in its table. -/
def byteLabel (n : Int64) : Option Bytes :=
  if n ≤ 0 then some (ascii "unlimited")
  else if n < 1024 then some (decimal n ++ ascii "B")
  else
    let size := n.toInt.toNat
    let (div, exp) := divideUnits (size / 1024) 1024 0
    (ascii "KMGT")[exp]?.map fun unit =>
      oneDecimal size div ++ [unit] ++ ascii "iB"

/-- The units of the powers of 1024. -/
def unitNames : List String := ["B", "KiB", "MiB", "GiB", "TiB", "PiB", "EiB"]

/-- The label of a size in the unit of a power. -/
def labelIn (size power : Nat) : Bytes :=
  (if power = 0 then itoa size else oneDecimal size (1024 ^ power)) ++
    ascii (unitNames.getD power "")

/-- The label of a cap exists and, if there is a cap, is the cap in the unit
that leaves a quotient of at least 1 and below 1024. -/
def HasLabel (n : Int64) : Prop :=
  ∃ label, byteLabel n = some label ∧ (0 < n.toInt →
    ∃ power, 1024 ^ power ≤ n.toInt.toNat ∧ n.toInt.toNat < 1024 ^ (power + 1) ∧
      label = labelIn n.toInt.toNat power)

/-- The loop counts the divisions, and multiplies the divisor as often. -/
theorem divideUnits_spec (v div exp : Nat) (positive : 1 ≤ v) :
    ∃ rounds, divideUnits v div exp = (div * 1024 ^ rounds, exp + rounds) ∧
      1024 ^ rounds ≤ v ∧ v < 1024 ^ (rounds + 1) := by
  fun_induction divideUnits v div exp with
  | case1 v div exp large inductionHypothesis =>
      obtain ⟨rounds, divided, low, high⟩ := inductionHypothesis (by omega)
      refine ⟨rounds + 1, ?_, ?_, ?_⟩
      · rw [divided, pow_succ, Nat.add_right_comm, Nat.mul_assoc,
          Nat.mul_comm 1024]
        rfl
      · rw [pow_succ]
        omega
      · rw [pow_succ]
        omega
  | case2 v div exp small => exact ⟨0, by simp, by omega, by omega⟩

/-- The power of a size of at least one unit. -/
theorem divideUnits_power {size : Nat} (large : 1024 ≤ size) :
    ∃ rounds, divideUnits (size / 1024) 1024 0 = (1024 ^ (rounds + 1), rounds) ∧
      1024 ^ (rounds + 1) ≤ size ∧ size < 1024 ^ (rounds + 2) := by
  obtain ⟨rounds, divided, low, high⟩ :=
    divideUnits_spec (size / 1024) 1024 0 (by omega)
  refine ⟨rounds, ?_, ?_, ?_⟩
  · rw [divided, pow_succ, Nat.zero_add, Nat.mul_comm]
  · rw [pow_succ]
    omega
  · rw [pow_succ]
    omega

/-- There is a unit in the table for sizes below 1024 ^ 5. -/
theorem rounds_lt_iff
    {size rounds : Nat}
    (low : 1024 ^ (rounds + 1) ≤ size)
    (high : size < 1024 ^ (rounds + 2)) :
    rounds < 4 ↔ size < 1024 ^ 5 := by
  constructor
  · intro small
    exact high.trans_le (Nat.pow_le_pow_right (by decide) (by omega))
  · intro small
    have powers := low.trans_lt small
    have := (Nat.pow_lt_pow_iff_right (by decide : 1 < 1024)).mp powers
    omega

/-- The units of the table are those of the first powers. -/
theorem unit_of_lt
    {rounds : Nat}
    (small : rounds < 4) :
    ∃ unit, (ascii "KMGT")[rounds]? = some unit ∧
      ascii (unitNames.getD (rounds + 1) "") = unit :: ascii "iB" := by
  match rounds, small with
  | 0, _ => exact ⟨0x4B, rfl, rfl⟩
  | 1, _ => exact ⟨0x4D, rfl, rfl⟩
  | 2, _ => exact ⟨0x47, rfl, rfl⟩
  | 3, _ => exact ⟨0x54, rfl, rfl⟩

/-- A positive cap is written in decimal as its size is. -/
theorem decimal_eq_itoa {n : Int64} (positive : 0 < n.toInt) :
    decimal n = itoa n.toInt.toNat := by
  unfold decimal itoa
  obtain ⟨size, isSize⟩ := Int.eq_ofNat_of_zero_le positive.le
  rw [isSize]
  rfl

/-- A cap of at least one unit is written with the unit of its power, if that is
in the table. -/
theorem byteLabel_of_large
    {n : Int64}
    {rounds : Nat}
    (low : 1024 ^ (rounds + 1) ≤ n.toInt.toNat)
    (high : n.toInt.toNat < 1024 ^ (rounds + 2)) :
    byteLabel n = (ascii "KMGT")[rounds]?.map fun unit =>
      oneDecimal n.toInt.toNat (1024 ^ (rounds + 1)) ++ [unit] ++ ascii "iB" := by
  have large : 1024 ≤ n.toInt.toNat := (Nat.le_self_pow (by omega) 1024).trans low
  obtain ⟨other, divided, otherLow, otherHigh⟩ := divideUnits_power large
  have same : other = rounds := by
    have upper := (Nat.pow_lt_pow_iff_right (by decide : 1 < 1024)).mp
      (otherLow.trans_lt high)
    have lower := (Nat.pow_lt_pow_iff_right (by decide : 1 < 1024)).mp
      (low.trans_lt otherHigh)
    omega
  rw [same] at divided
  have positive : ¬n ≤ 0 := by
    rw [Int64.le_iff_toInt_le, Int64.toInt_zero]
    omega
  have notSmall : ¬n < 1024 := by
    rw [Int64.lt_iff_toInt_lt]
    have bound : (1024 : Int64).toInt = 1024 := rfl
    omega
  unfold byteLabel
  rw [if_neg positive, if_neg notSmall]
  simp only [divided]

/-- **The logged cap.**  For every cap a label exists and is right if and only
if the cap is below 1024 ^ 5 bytes; for any other cap the server panics. -/
theorem hasLabel_iff (n : Int64) : HasLabel n ↔ n.toInt < 1024 ^ 5 := by
  by_cases positive : 0 < n.toInt
  · by_cases small : n.toInt < 1024
    · have label : byteLabel n = some (decimal n ++ ascii "B") := by
        have isPositive : ¬n ≤ 0 := by
          rw [Int64.le_iff_toInt_le, Int64.toInt_zero]
          omega
        have isSmall : n < 1024 := Int64.lt_iff_toInt_lt.mpr small
        rw [byteLabel, if_neg isPositive, if_pos isSmall]
      refine iff_of_true ⟨_, label, fun _ => ⟨0, by omega, by omega, ?_⟩⟩ (by omega)
      rw [decimal_eq_itoa positive]
      rfl
    · have large : 1024 ≤ n.toInt.toNat := by omega
      obtain ⟨rounds, -, low, high⟩ := divideUnits_power large
      have label := byteLabel_of_large low high
      have inTable := rounds_lt_iff low high
      have cast : n.toInt.toNat < 1024 ^ 5 ↔ n.toInt < 1024 ^ 5 := by omega
      rw [← cast, ← inTable]
      constructor
      · rintro ⟨text, isLabel, -⟩
        rw [label, Option.map_eq_some_iff] at isLabel
        obtain ⟨unit, found, -⟩ := isLabel
        exact (List.getElem?_eq_some_iff.mp found).1
      · intro few
        obtain ⟨unit, found, named⟩ := unit_of_lt few
        rw [found] at label
        refine ⟨_, label, fun _ => ⟨rounds + 1, low, high, ?_⟩⟩
        rw [labelIn, if_neg (by omega), named]
        exact List.append_assoc _ _ _
  · have label : byteLabel n = some (ascii "unlimited") := by
      have notPositive : n ≤ 0 := by
        rw [Int64.le_iff_toInt_le, Int64.toInt_zero]
        omega
      rw [byteLabel, if_pos notPositive]
    exact iff_of_true ⟨_, label, fun isPositive => absurd isPositive positive⟩
      (by omega)

/-- A cap of 1024 tebibytes is read and accepted, and has no label. -/
theorem large_cap_panics :
    parseBytes .amd64 (ascii "1024TiB") = .ok (2 ^ 50) ∧
    (∀ quoted, { Settings.standard with
      maxBytes := Int64.ofInt (2 ^ 50) }.validate quoted = .ok ()) ∧
    byteLabel (Int64.ofInt (2 ^ 50)) = none ∧
    ¬HasLabel (Int64.ofInt (2 ^ 50)) := by
  have size : (Int64.ofInt (2 ^ 50)).toInt.toNat = 1024 ^ (4 + 1) := by
    decide +kernel
  have high : (Int64.ofInt (2 ^ 50)).toInt.toNat < 1024 ^ (4 + 2) := by
    rw [size]
    decide
  refine ⟨by decide +kernel, fun quoted => rfl, ?_, ?_⟩
  · rw [byteLabel_of_large size.ge high]
    rfl
  · rw [hasLabel_iff]
    decide +kernel

end Config
end Haste
