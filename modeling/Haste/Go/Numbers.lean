import Haste.Go.Strings
import Mathlib.Algebra.Order.Ring.Abs
import Mathlib.Algebra.Order.Field.Rat
import Mathlib.Data.Rat.Floor

/-!
# Numbers as text

`strconv.ParseInt` and `strconv.ParseFloat`.  A floating-point number is taken
for the number that is written, without rounding; what is left of the format are
its bound, its infinities and its value that is not a number.
-/

namespace Haste
namespace Go

/-- The least number that a `float64` is too small for. -/
def floatBound : ℚ := 2 ^ 1024 - 2 ^ 970

/-- A value of type `float64`. -/
inductive FloatValue
  | finite (value : ℚ)
  | infinite (negative : Bool)
  | nan
  deriving DecidableEq

namespace FloatValue

/-- Below zero. -/
def isNegative : FloatValue → Bool
  | finite value => value < 0
  | infinite negative => negative
  | nan => false

end FloatValue

/-- The integer part of a number, toward zero. -/
def truncate (value : ℚ) : Int := value.num.tdiv value.den

theorem truncate_nonneg {value : ℚ} (nonnegative : 0 ≤ value) :
    0 ≤ truncate value :=
  Int.tdiv_nonneg (Rat.num_nonneg.mpr nonnegative) (Int.natCast_nonneg _)

@[simp] theorem truncate_intCast (value : Int) : truncate (value : ℚ) = value := by
  simp [truncate]

theorem truncate_neg (value : ℚ) : truncate (-value) = -truncate value := by
  simp [truncate]

theorem truncate_of_nonneg {value : ℚ} (nonnegative : 0 ≤ value) :
    truncate value = ⌊value⌋ := by
  rw [truncate, Int.tdiv_eq_ediv_of_nonneg (Rat.num_nonneg.mpr nonnegative),
    ← Rat.floor_def']

/-- The integer part is less than one away. -/
theorem abs_sub_truncate_lt (value : ℚ) : |value - truncate value| < 1 := by
  have nonnegative : ∀ value : ℚ, 0 ≤ value → |value - truncate value| < 1 := by
    intro value nonnegative
    rw [truncate_of_nonneg nonnegative, Int.self_sub_floor,
      abs_of_nonneg (Int.fract_nonneg value)]
    exact Int.fract_lt_one value
  rcases le_total 0 value with above | below
  · exact nonnegative value above
  · have negated := nonnegative (-value) (neg_nonneg.mpr below)
    rw [truncate_neg, Int.cast_neg, ← neg_sub', abs_neg] at negated
    exact negated

/-- The conversion of a `float64` to `int64` discards the fraction.  What it
makes of a value without an integer part in range is up to the machine. -/
structure Conversion where
  toInt64 : FloatValue → Int64
  inRange : ∀ value : ℚ, -2 ^ 63 ≤ truncate value → truncate value < 2 ^ 63 →
    (toInt64 (.finite value)).toInt = truncate value

/-- The conversion of an amd64 processor: the least integer stands for every value
out of range. -/
def Conversion.amd64 : Conversion where
  toInt64
    | .finite value =>
        if -2 ^ 63 ≤ truncate value ∧ truncate value < 2 ^ 63 then
          Int64.ofInt (truncate value)
        else Int64.minValue
    | _ => Int64.minValue
  inRange value low high := by
    simp only [if_pos (And.intro low high)]
    rw [Int64.toInt_ofInt]
    have size : Int64.size = 2 ^ 64 := rfl
    exact Int.bmod_eq_of_le (by omega) (by omega)

/-- A sign, and what follows it. -/
def takeSign : Bytes → Bool × Bytes
  | 0x2B :: rest => (false, rest)
  | 0x2D :: rest => (true, rest)
  | text => (false, text)

/-- A number with its sign. -/
def signed {Number : Type} [Neg Number] (negative : Bool) (number : Number) :
    Number :=
  if negative then -number else number

/-- `lower`: the lower case of an ASCII letter. -/
def lower (byte : UInt8) : UInt8 := byte ||| 0x20

/-- The value of a decimal digit or, in a hexadecimal number, of a letter. -/
def digitValue (hex : Bool) (byte : UInt8) : Option Nat :=
  if between 0x30 0x39 byte then some (byte.toNat - 0x30)
  else if hex && between 0x61 0x66 (lower byte) then
    some ((lower byte).toNat - 0x61 + 10)
  else none

/-- The number that digits stand for. -/
def positional (base : Nat) (digits : List Nat) : Nat :=
  digits.foldl (fun value digit => value * base + digit) 0

/-- `strconv.ParseInt` in base 10, to 64 bits. -/
def parseInt (text : Bytes) : Option Int :=
  let (negative, digits) := takeSign text
  if digits = [] ∨ digits.any (fun byte => (digitValue false byte).isNone) then
    none
  else
    let value := signed negative
      (positional 10 (digits.filterMap (digitValue false)) : Int)
    if -2 ^ 63 ≤ value ∧ value < 2 ^ 63 then some value else none

theorem parseInt_range
    {text : Bytes}
    {value : Int}
    (parsed : parseInt text = some value) :
    -2 ^ 63 ≤ value ∧ value < 2 ^ 63 := by
  unfold parseInt at parsed
  simp only [Option.ite_none_left_eq_some, Option.ite_none_right_eq_some,
    Option.some.injEq] at parsed
  obtain ⟨-, inRange, rfl⟩ := parsed
  exact inRange

/-! ## Floating-point numbers -/

/-- `special`: the names of the infinities and of the value that is no
number. -/
def special (text : Bytes) : Option FloatValue :=
  let (negative, name) := takeSign text
  if name.map lower = ascii "inf" ∨ name.map lower = ascii "infinity" then
    some (.infinite negative)
  else if text.map lower = ascii "nan" then some .nan
  else none

/-- The last thing that the scan for underscores has seen. -/
inductive Saw
  | digit
  | underscore
  | other
  deriving DecidableEq

/-- The loop of `underscoreOK`. -/
def underscoresFrom (hex : Bool) : Saw → Bytes → Bool
  | saw, [] => saw != .underscore
  | saw, byte :: rest =>
      if (digitValue hex byte).isSome then underscoresFrom hex .digit rest
      else if byte = 0x5F then
        saw == .digit && underscoresFrom hex .underscore rest
      else saw != .underscore && underscoresFrom hex .other rest

/-- `underscoreOK`: underscores stand between digits, or between a base and a
digit. -/
def underscoreOK (text : Bytes) : Bool :=
  match (takeSign text).2 with
  | 0x30 :: letter :: rest =>
      if (ascii "box").contains (lower letter) then
        underscoresFrom (lower letter == 0x78) .digit rest
      else underscoresFrom false .other (0x30 :: letter :: rest)
  | body => underscoresFrom false .other body

/-- Whether a number without its sign is hexadecimal. -/
def isHex : Bytes → Bool
  | 0x30 :: letter :: _ :: _ => lower letter == 0x78
  | _ => false

/-- A byte of the digits of a number. -/
def isMantissa (hex : Bool) (byte : UInt8) : Bool :=
  byte == 0x5F || (digitValue hex byte).isSome

/-- The digits before and after the point, and what follows them. -/
def mantissa (hex : Bool) (body : Bytes) : Bytes × Bytes × Bytes :=
  let whole := body.takeWhile (isMantissa hex)
  match body.dropWhile (isMantissa hex) with
  | 0x2E :: rest =>
      (whole, rest.takeWhile (isMantissa hex), rest.dropWhile (isMantissa hex))
  | rest => (whole, [], rest)

/-- The exponent that ends a number.  A hexadecimal number must have one. -/
def exponent (hex : Bool) : Bytes → Option Int
  | [] => if hex then none else some 0
  | letter :: rest =>
      if lower letter ≠ (if hex then 0x70 else 0x65) then none
      else
        match takeSign rest with
        | (_, []) => none
        | (negative, first :: more) =>
            if (digitValue false first).isNone ∨
                (first :: more).any (fun byte => !isMantissa false byte) then
              none
            else some (signed negative
              (positional 10 ((first :: more).filterMap (digitValue false)) : Int))

/-- A power with an integer exponent. -/
def power (base : ℚ) (exponent : Int) : ℚ :=
  if 0 ≤ exponent then base ^ exponent.toNat else 1 / base ^ (-exponent).toNat

/-- `readFloat`, for the whole text. -/
def readFloat (text : Bytes) : Option ℚ :=
  let (negative, body) := takeSign text
  let hex := isHex body
  let (whole, fraction, rest) := mantissa hex (if hex then body.drop 2 else body)
  let digits := (whole ++ fraction).filterMap (digitValue hex)
  let places := (fraction.filterMap (digitValue hex)).length
  match exponent hex rest with
  | none => none
  | some shift =>
      if digits = [] ∨ text.contains 0x5F ∧ underscoreOK text = false then none
      else
        let base := if hex then 16 else 10
        some (signed negative
          (positional base digits / base ^ places *
            power (if hex then 2 else 10) shift))

/-- `strconv.ParseFloat`. -/
def parseFloat (text : Bytes) : Option FloatValue :=
  match special text with
  | some value => some value
  | none =>
      match readFloat text with
      | none => none
      | some value =>
          if |value| < floatBound then some (.finite value) else none

example : parseFloat (ascii "-1_2.50e+1") = some (.finite (-125)) := by
  decide +kernel

example : parseFloat (ascii "0x1.8p-1") = some (.finite (3 / 4)) := by
  decide +kernel

example : parseFloat (ascii "1_.5") = none := by decide +kernel

end Go
end Haste
