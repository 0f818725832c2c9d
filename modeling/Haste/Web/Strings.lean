import Haste.Go.Unquote
import Mathlib.Data.List.Chain

/-!
# JavaScript strings

A JavaScript string is a list of 16-bit units.  Its code points pair each high
surrogate with a low one right after it, and every other surrogate stands alone.
`JSON.stringify` escapes these, so that the literal is sent as UTF-8 without
loss; the server then reads each of them as one replacement character.
-/

namespace Haste
namespace Web

open Go

/-- A JavaScript string. -/
abbrev JsString := List UInt16

/-- `(unit & 0xfc00) === 0xd800` -/
def isHigh (unit : UInt16) : Bool := unit &&& 0xFC00 == 0xD800

/-- `(unit & 0xfc00) === 0xdc00` -/
def isLow (unit : UInt16) : Bool := unit &&& 0xFC00 == 0xDC00

/-- The loop of `countCodePoints`, on the units from `i` on. -/
def countFrom (count : Int) : JsString → Int
  | first :: second :: rest =>
      if isHigh first && isLow second then countFrom (count - 1) rest
      else countFrom count (second :: rest)
  | _ => count

/-- `countCodePoints`. -/
def countCodePoints (s : JsString) : Int := countFrom s.length s

/-- `StringToCodePoints`. -/
def codePoints : JsString → List Nat
  | first :: second :: rest =>
      if isHigh first && isLow second then
        combine first.toNat second.toNat :: codePoints rest
      else first.toNat :: codePoints (second :: rest)
  | [unit] => [unit.toNat]
  | [] => []

/-- `UTF16EncodeCodePoint`. -/
def utf16EncodeCodePoint (point : Nat) : JsString :=
  if point ≤ 0xFFFF then [UInt16.ofNat point]
  else
    [UInt16.ofNat ((point - 0x10000) / 0x400 + 0xD800),
      UInt16.ofNat ((point - 0x10000) % 0x400 + 0xDC00)]

/-- A lower-case hexadecimal digit. -/
def hexDigit (value : Nat) : Nat :=
  if value < 10 then 0x30 + value else 0x61 + (value - 10)

/-- `UnicodeEscape`. -/
def unicodeEscape (point : Nat) : List Nat :=
  [0x5C, 0x75, hexDigit (point / 4096 % 16), hexDigit (point / 256 % 16),
    hexDigit (point / 16 % 16), hexDigit (point % 16)]

/-- The letter of a code point with an escape of its own. -/
def escapeLetter (point : Nat) : Option Nat :=
  if point = 0x08 then some 0x62
  else if point = 0x09 then some 0x74
  else if point = 0x0A then some 0x6E
  else if point = 0x0C then some 0x66
  else if point = 0x0D then some 0x72
  else if point = 0x22 then some 0x22
  else if point = 0x5C then some 0x5C
  else none

/-- A code point of a string as `QuoteJSONString` writes it. -/
def quoteCodePoint (point : Nat) : List Nat :=
  match escapeLetter point with
  | some letter => [0x5C, letter]
  | none =>
      if point < 0x20 ∨ isSurrogate point = true then unicodeEscape point
      else [point]

/-- `QuoteJSONString`, which `JSON.stringify` applies to a string. -/
def quoteJSONString (s : JsString) : JsString :=
  (0x22 :: (codePoints s).flatMap quoteCodePoint ++ [0x22]).flatMap
    utf16EncodeCodePoint

/-- A string as a request body carries it: a surrogate that stands alone is sent
as the replacement character. -/
def utf8Encode (s : JsString) : Bytes := (codePoints s).flatMap encodeRune

/-- `String.prototype.trim` removes white space and line terminators. -/
def isWhiteSpace (unit : UInt16) : Bool :=
  (0x09 ≤ unit && unit ≤ 0x0D) || unit == 0x20 || unit == 0xA0 ||
    unit == 0x1680 || (0x2000 ≤ unit && unit ≤ 0x200A) || unit == 0x2028 ||
    unit == 0x2029 || unit == 0x202F || unit == 0x205F || unit == 0x3000 ||
    unit == 0xFEFF

/-- `String.prototype.trim`. -/
def trim (s : JsString) : JsString :=
  (s.dropWhile isWhiteSpace).rdropWhile isWhiteSpace

/-- A high surrogate before a pair stands alone. -/
example : countCodePoints [0xD83D, 0xD83D, 0xDC4B] = 2 := by decide

/-! ## Surrogates -/

/-- The upper six bits of a unit. -/
theorem toNat_and_mask (unit : UInt16) :
    (unit &&& 0xFC00).toNat = unit.toNat / 1024 * 1024 := by
  have inRange := unit.toNat_lt
  have low : (unit.toNat &&& 0xFC00) % 2 ^ 10 = 0 := by
    rw [Nat.and_mod_two_pow]
    exact Nat.and_zero _
  have high : (unit.toNat &&& 0xFC00) / 2 ^ 10 = unit.toNat / 2 ^ 10 := by
    rw [Nat.and_div_two_pow]
    change unit.toNat / 2 ^ 10 &&& 2 ^ 6 - 1 = unit.toNat / 2 ^ 10
    rw [Nat.and_two_pow_sub_one_eq_mod]
    exact Nat.mod_eq_of_lt (by omega)
  rw [UInt16.toNat_and]
  change unit.toNat &&& 0xFC00 = unit.toNat / 1024 * 1024
  omega

theorem isHigh_eq (unit : UInt16) : isHigh unit = isHighSurrogate unit.toNat := by
  have inRange := unit.toNat_lt
  rw [Bool.eq_iff_iff, isHigh, beq_iff_eq, ← UInt16.toNat_inj, toNat_and_mask,
    isHighSurrogate, Bool.and_eq_true, decide_eq_true_iff, decide_eq_true_iff]
  simp only [UInt16.reduceToNat]
  omega

theorem isLow_eq (unit : UInt16) : isLow unit = isLowSurrogate unit.toNat := by
  have inRange := unit.toNat_lt
  rw [Bool.eq_iff_iff, isLow, beq_iff_eq, ← UInt16.toNat_inj, toNat_and_mask,
    isLowSurrogate, Bool.and_eq_true, decide_eq_true_iff, decide_eq_true_iff]
  simp only [UInt16.reduceToNat]
  omega

/-- The count of a loop that has come to these units. -/
theorem countFrom_eq (count : Int) (s : JsString) :
    countFrom count s = count - s.length + (codePoints s).length := by
  fun_induction countFrom count s with
  | case1 count first second rest paired inductionHypothesis =>
      rw [inductionHypothesis, codePoints, if_pos paired]
      simp only [List.length_cons]
      omega
  | case2 count first second rest alone inductionHypothesis =>
      rw [inductionHypothesis, codePoints, if_neg alone]
      simp only [List.length_cons]
      omega
  | case3 s count short =>
      match s with
      | [] => simp [codePoints]
      | [unit] => simp [codePoints]
      | first :: second :: rest => exact absurd rfl (short first second rest)

/-- `countCodePoints` counts the code points. -/
theorem countCodePoints_eq (s : JsString) :
    countCodePoints s = (codePoints s).length := by
  rw [countCodePoints, countFrom_eq]
  omega

theorem le_combine (high low : Nat) : 0x10000 ≤ combine high low :=
  Nat.le_add_left _ _

theorem codePoints_le (s : JsString) :
    ∀ point ∈ codePoints s, point ≤ 0x10FFFF := by
  fun_induction codePoints s with
  | case1 first second rest paired inductionHypothesis =>
      refine List.forall_mem_cons.mpr ⟨?_, inductionHypothesis⟩
      rw [isHigh_eq, isLow_eq] at paired
      simp only [isHighSurrogate, isLowSurrogate, Bool.and_eq_true,
        decide_eq_true_eq] at paired
      unfold combine
      omega
  | case2 first second rest alone inductionHypothesis =>
      exact List.forall_mem_cons.mpr
        ⟨first.toNat_lt.le.trans (by decide), inductionHypothesis⟩
  | case3 unit =>
      exact List.forall_mem_singleton.mpr (unit.toNat_lt.le.trans (by decide))
  | case4 => exact List.forall_mem_nil _

/-- The first code point is the first unit, or no surrogate. -/
theorem head_codePoints
    {first : UInt16}
    {rest : JsString}
    {point : Nat}
    (isFirst : point ∈ (codePoints (first :: rest)).head?) :
    point = first.toNat ∨ 0x10000 ≤ point := by
  cases rest with
  | nil => exact Or.inl (Option.some.inj isFirst).symm
  | cons second rest =>
      rw [codePoints] at isFirst
      split at isFirst
      · exact Or.inr (Option.some.inj isFirst ▸ le_combine _ _)
      · exact Or.inl (Option.some.inj isFirst).symm

/-- No low surrogate is left after a high one. -/
theorem codePoints_isChain (s : JsString) :
    (codePoints s).IsChain fun point next =>
      isHighSurrogate point = true → isLowSurrogate next = false := by
  fun_induction codePoints s with
  | case1 first second rest paired inductionHypothesis =>
      apply List.isChain_cons.mpr
      refine ⟨fun next _ isHigh => ?_, inductionHypothesis⟩
      rw [isHighSurrogate, Bool.and_eq_true, decide_eq_true_iff,
        decide_eq_true_iff] at isHigh
      have large := le_combine first.toNat second.toNat
      omega
  | case2 first second rest alone inductionHypothesis =>
      apply List.isChain_cons.mpr
      refine ⟨fun next isNext isHigh => ?_, inductionHypothesis⟩
      rw [isHigh_eq, isLow_eq, isHigh, Bool.true_and, Bool.not_eq_true] at alone
      rcases head_codePoints isNext with same | large
      · rw [same]
        exact alone
      · simp only [isLowSurrogate, Bool.and_eq_false_iff, decide_eq_false_iff_not]
        omega
  | case3 unit => exact List.isChain_singleton _
  | case4 => exact List.isChain_nil

/-! ## Encoding code points -/

theorem codePoints_cons_of_not_high
    {unit : UInt16}
    (notHigh : isHigh unit = false)
    (rest : JsString) :
    codePoints (unit :: rest) = unit.toNat :: codePoints rest := by
  cases rest with
  | nil => rfl
  | cons second rest => simp [codePoints, notHigh]

/-- A scalar value is read back, whatever follows. -/
theorem codePoints_utf16EncodeCodePoint
    {point : Nat}
    (isScalar : IsScalar point)
    (rest : JsString) :
    codePoints (utf16EncodeCodePoint point ++ rest) =
      point :: codePoints rest := by
  obtain ⟨inRange, notSurrogate⟩ := isScalar
  unfold utf16EncodeCodePoint
  split
  case isTrue small =>
    have value : (UInt16.ofNat point).toNat = point := by
      rw [UInt16.toNat_ofNat']
      exact Nat.mod_eq_of_lt (by omega)
    have notHigh : isHigh (UInt16.ofNat point) = false := by
      rw [isHigh_eq, value]
      simp only [isSurrogate, isHighSurrogate, Bool.and_eq_false_iff,
        decide_eq_false_iff_not] at notSurrogate ⊢
      omega
    rw [List.cons_append, List.nil_append, codePoints_cons_of_not_high notHigh,
      value]
  case isFalse large =>
    have high : (UInt16.ofNat ((point - 0x10000) / 0x400 + 0xD800)).toNat =
        (point - 0x10000) / 0x400 + 0xD800 := by
      rw [UInt16.toNat_ofNat']
      exact Nat.mod_eq_of_lt (by omega)
    have low : (UInt16.ofNat ((point - 0x10000) % 0x400 + 0xDC00)).toNat =
        (point - 0x10000) % 0x400 + 0xDC00 := by
      rw [UInt16.toNat_ofNat']
      exact Nat.mod_eq_of_lt (by omega)
    have paired : (isHigh (UInt16.ofNat ((point - 0x10000) / 0x400 + 0xD800)) &&
        isLow (UInt16.ofNat ((point - 0x10000) % 0x400 + 0xDC00))) = true := by
      rw [isHigh_eq, isLow_eq, high, low]
      simp only [isHighSurrogate, isLowSurrogate, Bool.and_eq_true,
        decide_eq_true_eq]
      omega
    have value : combine ((point - 0x10000) / 0x400 + 0xD800)
        ((point - 0x10000) % 0x400 + 0xDC00) = point := by
      unfold combine
      omega
    rw [List.cons_append, List.cons_append, List.nil_append, codePoints,
      if_pos paired, high, low, value]

theorem codePoints_encode
    {points : List Nat}
    (scalars : ∀ point ∈ points, IsScalar point) :
    codePoints (points.flatMap utf16EncodeCodePoint) = points := by
  induction points with
  | nil => rfl
  | cons point points inductionHypothesis =>
      obtain ⟨isScalar, others⟩ := List.forall_mem_cons.mp scalars
      rw [List.flatMap_cons, codePoints_utf16EncodeCodePoint isScalar,
        inductionHypothesis others]

end Web
end Haste
