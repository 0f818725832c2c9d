import Haste.Id.Slug
import Mathlib.Data.Nat.Digits.Lemmas

/-!
# Fixed-width base 62

`encode` writes the digits of a number from the last position to the first.
At every width it is a bijection between the numbers that fit and the strings
of that many characters of the alphabet.
-/

namespace Haste
namespace Id

open Go

/-- The character of one digit. -/
def letter (digit : Nat) : UInt8 := alphabet.getD digit 0

/-- A string of characters of the alphabet. -/
def IsBase62 (code : Bytes) : Prop := ∀ byte ∈ code, byte ∈ alphabet

theorem alphabet_length : alphabet.length = 62 := by decide

theorem alphabet_nodup : alphabet.Nodup := by decide

theorem letter_eq_getElem
    {digit : Nat}
    (bound : digit < alphabet.length) :
    letter digit = alphabet[digit] := by
  simp [letter, bound]

/-- Digits are written with distinct characters. -/
theorem letter_injOn : Set.InjOn letter {digit | digit < 62} := by
  intro left leftBound right rightBound equal
  rw [Set.mem_ofPred_eq, ← alphabet_length] at leftBound rightBound
  rw [letter_eq_getElem leftBound, letter_eq_getElem rightBound] at equal
  exact (alphabet_nodup.getElem_inj_iff).mp equal

/-- The characters of the digits are those of the alphabet. -/
theorem mem_alphabet_iff (byte : UInt8) :
    byte ∈ alphabet ↔ ∃ digit < 62, letter digit = byte := by
  rw [← alphabet_length]
  constructor
  · intro present
    obtain ⟨digit, bound, equal⟩ := List.mem_iff_getElem.mp present
    exact ⟨digit, bound, by rw [letter_eq_getElem bound, equal]⟩
  · rintro ⟨digit, bound, rfl⟩
    rw [letter_eq_getElem bound]
    exact List.getElem_mem bound

theorem digitsAppend_succ
    {base : Nat}
    (large : 1 < base)
    (length number : Nat) :
    Nat.digitsAppend base (length + 1) number =
      number % base :: Nat.digitsAppend base length (number / base) := by
  rcases Nat.eq_zero_or_pos number with rfl | positive
  · simp [Nat.digitsAppend, List.replicate_succ]
  · simp [Nat.digitsAppend, Nat.digits_def' large positive]

/-- The loop of `encode` puts the digits before what it has written. -/
theorem encodeFrom_eq
    (position : Nat)
    (value : UInt64)
    (bound : value.toNat < 62 ^ position)
    (buffer : Bytes) :
    encodeFrom position value buffer =
      ((Nat.digitsAppend 62 position value.toNat).map letter).reverse ++ buffer := by
  induction position generalizing value buffer with
  | zero =>
      rw [pow_zero, Nat.lt_one_iff] at bound
      simp [encodeFrom, Nat.digitsAppend, bound]
  | succ position inductionHypothesis =>
      have quotient : (value / base).toNat = value.toNat / 62 := by
        simp [base]
      have quotientBound : (value / base).toNat < 62 ^ position := by
        rw [quotient]
        rw [pow_succ'] at bound
        exact Nat.div_lt_of_lt_mul bound
      rw [encodeFrom, inductionHypothesis _ quotientBound,
        digitsAppend_succ (by decide), quotient]
      simp [base, letter]

theorem encode_eq
    {length : Nat}
    {value : UInt64}
    (bound : value.toNat < 62 ^ length) :
    encode value length =
      ((Nat.digitsAppend 62 length value.toNat).map letter).reverse := by
  rw [encode, encodeFrom_eq length value bound, List.append_nil]

theorem encode_length
    {length : Nat}
    {value : UInt64}
    (bound : value.toNat < 62 ^ length) :
    (encode value length).length = length := by
  rw [encode_eq bound, List.length_reverse, List.length_map]
  exact Nat.length_digitsAppend (by decide) length bound

theorem encode_isBase62
    {length : Nat}
    {value : UInt64}
    (bound : value.toNat < 62 ^ length) :
    IsBase62 (encode value length) := by
  intro byte present
  rw [encode_eq bound, List.mem_reverse, List.mem_map] at present
  obtain ⟨digit, member, rfl⟩ := present
  exact (mem_alphabet_iff _).mpr
    ⟨digit, Nat.lt_of_mem_digitsAppend (by decide) _ _ member, rfl⟩

theorem map_letter_injective
    {left right : List Nat}
    (leftDigits : ∀ digit ∈ left, digit < 62)
    (rightDigits : ∀ digit ∈ right, digit < 62)
    (equal : left.map letter = right.map letter) :
    left = right := by
  induction left generalizing right with
  | nil => exact (List.map_eq_nil_iff.mp equal.symm).symm
  | cons first rest inductionHypothesis =>
      cases right with
      | nil => simp at equal
      | cons first' rest' =>
          simp only [List.map_cons, List.cons.injEq] at equal
          simp only [List.forall_mem_cons] at leftDigits rightDigits
          rw [letter_injOn leftDigits.1 rightDigits.1 equal.1,
            inductionHypothesis leftDigits.2 rightDigits.2 equal.2]

/-- Distinct numbers that fit are written differently. -/
theorem encode_injective
    {length : Nat}
    {left right : UInt64}
    (leftBound : left.toNat < 62 ^ length)
    (rightBound : right.toNat < 62 ^ length)
    (equal : encode left length = encode right length) :
    left = right := by
  rw [encode_eq leftBound, encode_eq rightBound, List.reverse_inj] at equal
  have digits := map_letter_injective
    (fun digit present => Nat.lt_of_mem_digitsAppend (by decide) _ _ present)
    (fun digit present => Nat.lt_of_mem_digitsAppend (by decide) _ _ present)
    equal
  exact UInt64.toNat_inj.mp ((Nat.bijOn_digitsAppend (by decide) length).injOn
    leftBound rightBound digits)

theorem exists_digits
    {code : Bytes}
    (base62 : IsBase62 code) :
    ∃ digits : List Nat, digits.map letter = code ∧ ∀ digit ∈ digits, digit < 62 := by
  induction code with
  | nil => exact ⟨[], rfl, by simp⟩
  | cons first rest inductionHypothesis =>
      rw [IsBase62, List.forall_mem_cons] at base62
      obtain ⟨digit, bound, written⟩ := (mem_alphabet_iff first).mp base62.1
      obtain ⟨digits, equal, bounds⟩ := inductionHypothesis base62.2
      exact ⟨digit :: digits, by rw [List.map_cons, written, equal],
        List.forall_mem_cons.mpr ⟨bound, bounds⟩⟩

/-- Every string of the alphabet is the encoding of a number that fits. -/
theorem exists_encode
    {code : Bytes}
    (short : code.length ≤ maxLen)
    (base62 : IsBase62 code) :
    ∃ value : UInt64, value.toNat < 62 ^ code.length ∧
      encode value code.length = code := by
  obtain ⟨digits, written, bounds⟩ := exists_digits base62
  have sameLength : digits.length = code.length := by
    rw [← written, List.length_map]
  obtain ⟨number, fits, equal⟩ :=
    (Nat.bijOn_digitsAppend (by decide : 1 < 62) code.length).surjOn
      (show digits.reverse ∈ _ from
        ⟨by rw [List.length_reverse, sameLength], by simpa using bounds⟩)
  have fitsWord : number < UInt64.size := by
    calc
      number < 62 ^ code.length := fits
      _ ≤ 62 ^ maxLen := Nat.pow_le_pow_right (by decide) short
      _ < UInt64.size := by decide
  have value := UInt64.toNat_ofNat_of_lt' fitsWord
  refine ⟨UInt64.ofNat number, by rw [value]; exact fits, ?_⟩
  rw [encode_eq (by rw [value]; exact fits), value, equal, List.map_reverse,
    List.reverse_reverse, written]

end Id
end Haste
