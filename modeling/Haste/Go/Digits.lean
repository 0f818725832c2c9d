import Haste.Go.Utf8

/-!
# Decimal digits

The text of a natural number is digits, and no zero leads unless it is the only
one.
-/

namespace Haste
namespace Go

/-- A decimal digit. -/
def isDigit (byte : UInt8) : Bool := between 0x30 0x39 byte

/-- The byte of a digit. -/
def digit (value : Nat) : UInt8 := UInt8.ofNat (0x30 + value)

theorem toUInt8_digitChar : ∀ value < 10,
    (Nat.digitChar value).toUInt8 = digit value := by
  decide

theorem isDigit_digit : ∀ value < 10, isDigit (digit value) = true := by decide

theorem digit_ne_zero : ∀ value < 10, 0 < value → digit value ≠ 0x30 := by decide

theorem itoa_eq (number : Nat) :
    itoa number = (Nat.toDigits 10 number).map Char.toUInt8 := by
  rw [itoa, ascii, Nat.toString_eq_ofList_toDigits, String.toList_ofList]

theorem itoa_of_lt {number : Nat} (small : number < 10) :
    itoa number = [digit number] := by
  rw [itoa_eq, Nat.toDigits_of_lt_base small, List.map_singleton,
    toUInt8_digitChar number small]

theorem itoa_of_le {number : Nat} (large : 10 ≤ number) :
    itoa number = itoa (number / 10) ++ [digit (number % 10)] := by
  rw [itoa_eq, itoa_eq, Nat.toDigits_of_base_le (by decide) large,
    List.map_append, List.map_singleton,
    toUInt8_digitChar _ (Nat.mod_lt _ (by decide))]

theorem itoa_digits (number : Nat) :
    ∃ first rest, itoa number = first :: rest ∧
      (∀ byte ∈ first :: rest, isDigit byte = true) ∧
      (0 < number → first ≠ 0x30) := by
  induction number using Nat.strong_induction_on with
  | _ number inductionHypothesis =>
      by_cases small : number < 10
      · refine ⟨_, _, itoa_of_lt small, ?_, digit_ne_zero number small⟩
        simpa using isDigit_digit number small
      · obtain ⟨first, rest, isText, digits, leading⟩ :=
          inductionHypothesis (number / 10) (by omega)
        refine ⟨first, rest ++ [digit (number % 10)], ?_, ?_, ?_⟩
        · rw [itoa_of_le (by omega), isText, List.cons_append]
        · intro byte listed
          rw [← List.cons_append, List.mem_append, List.mem_singleton] at listed
          rcases listed with earlier | rfl
          · exact digits byte earlier
          · exact isDigit_digit _ (Nat.mod_lt _ (by decide))
        · exact fun _ => leading (by omega)

end Go
end Haste
