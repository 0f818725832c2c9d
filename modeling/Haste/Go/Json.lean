import Haste.Go.Strings
import Mathlib.Tactic.SplitIfs

/-!
# JSON strings

`encoding/json` writes a string literal character by character: quotes, control
characters and the characters that matter in HTML are escaped, and an invalid
byte becomes the escape of the replacement character.
-/

namespace Haste
namespace Go

/-- The last two digits of a `\u` escape of an ASCII character. -/
def hexDigits (byte : UInt8) : Bytes :=
  let digit (value : Nat) : UInt8 := (ascii "0123456789abcdef").getD value 0x30
  [digit (byte.toNat / 16), digit (byte.toNat % 16)]

/-- An ASCII character of a literal. -/
def escapeASCII (byte : UInt8) : Bytes :=
  if byte = 0x5C ∨ byte = 0x22 then [0x5C, byte]
  else if byte = 0x08 then ascii "\\b"
  else if byte = 0x0C then ascii "\\f"
  else if byte = 0x0A then ascii "\\n"
  else if byte = 0x0D then ascii "\\r"
  else if byte = 0x09 then ascii "\\t"
  else if byte < 0x20 ∨ byte = 0x3C ∨ byte = 0x3E ∨ byte = 0x26 then
    ascii "\\u00" ++ hexDigits byte
  else [byte]

/-- A character of a literal.  A byte of no encoding is written as the escape of
the replacement character, and the two separators that end a line in JavaScript
are escaped. -/
def escapeCharacter (character : Nat × Bytes) : Bytes :=
  match character.2 with
  | [byte] => if byte < 0x80 then escapeASCII byte else ascii "\\ufffd"
  | bytes =>
      if character.1 = 0x2028 then ascii "\\u2028"
      else if character.1 = 0x2029 then ascii "\\u2029"
      else bytes

/-- What stands between the quotes of a literal. -/
def escape (text : Bytes) : Bytes := (characters text).flatMap escapeCharacter

/-- A string literal, as `appendString` writes it. -/
def quote (text : Bytes) : Bytes := ascii "\"" ++ escape text ++ ascii "\""

example : quote (ascii "<a \"b\">") = ascii "\"\\u003ca \\\"b\\\"\\u003e\"" := by
  decide

/-! ## Text before an ASCII character -/

theorem between_of_ascii
    {byte low : UInt8}
    (isAscii : byte < 0x80)
    (high : UInt8)
    (lowNot : 0x80 ≤ low) :
    between low high byte = false := by
  have short : ¬low ≤ byte := by
    rw [UInt8.not_le]
    exact UInt8.lt_of_lt_of_le isAscii lowNot
  simp [between, short]

/-- An ASCII character continues no other one. -/
theorem decodeRune_append_of_ascii
    {byte : UInt8}
    (isAscii : byte < 0x80)
    (first : UInt8)
    (text rest : Bytes) :
    decodeRune (first :: text ++ byte :: rest) = decodeRune (first :: text) := by
  have tail : between 0x80 0xBF byte = false :=
    between_of_ascii isAscii 0xBF (by decide)
  have afterE0 : between (if first = 0xE0 then 0xA0 else 0x80)
      (if first = 0xED then 0x9F else 0xBF) byte = false :=
    between_of_ascii isAscii _ (by split <;> decide)
  have afterF0 : between (if first = 0xF0 then 0x90 else 0x80)
      (if first = 0xF4 then 0x8F else 0xBF) byte = false :=
    between_of_ascii isAscii _ (by split <;> decide)
  rcases text with _ | ⟨second, _ | ⟨third, _ | ⟨fourth, text⟩⟩⟩
  · cases rest with
    | nil => simp [decodeRune, tail]
    | cons next rest =>
        cases rest with
        | nil => simp [decodeRune, tail, afterE0]
        | cons after rest => simp [decodeRune, tail, afterE0, afterF0]
  · cases rest with
    | nil => simp [decodeRune, tail]
    | cons next rest => simp [decodeRune, tail]
  · simp [decodeRune, tail]
  · rfl

/-- A character is at least one byte wide and within the text. -/
theorem decodeRune_width (first : UInt8) (text : Bytes) :
    1 ≤ (decodeRune (first :: text)).2 ∧
      (decodeRune (first :: text)).2 ≤ text.length + 1 := by
  rcases text with _ | ⟨second, _ | ⟨third, _ | ⟨fourth, text⟩⟩⟩ <;>
    simp only [decodeRune] <;> split_ifs <;> simp

/-- The characters of text before an ASCII character are its own. -/
theorem characters_append_of_ascii
    {byte : UInt8}
    (isAscii : byte < 0x80)
    (text rest : Bytes) :
    characters (text ++ byte :: rest) =
      characters text ++ characters (byte :: rest) := by
  have key : ∀ (text : Bytes) (skip : Nat), skip ≤ text.length →
      charactersFrom skip (text ++ byte :: rest) =
        charactersFrom skip text ++ charactersFrom 0 (byte :: rest) := by
    intro text
    induction text with
    | nil =>
        intro skip within
        obtain rfl := Nat.le_zero.mp within
        rfl
    | cons first text inductionHypothesis =>
        intro skip within
        cases skip with
        | succ skip =>
            exact inductionHypothesis skip (Nat.le_of_succ_le_succ within)
        | zero =>
            have same := decodeRune_append_of_ascii isAscii first text rest
            obtain ⟨-, inText⟩ := decodeRune_width first text
            have taken : (first :: text ++ byte :: rest).take
                (decodeRune (first :: text)).2 =
                  (first :: text).take (decodeRune (first :: text)).2 :=
              List.take_append_of_le_length inText
            rw [List.cons_append] at same taken ⊢
            rw [charactersFrom, same, taken,
              inductionHypothesis _ (Nat.sub_le_of_le_add inText)]
            rfl
  exact key text 0 (Nat.zero_le _)

theorem escape_append_of_ascii
    {byte : UInt8}
    (isAscii : byte < 0x80)
    (text rest : Bytes) :
    escape (text ++ byte :: rest) = escape text ++ escape (byte :: rest) := by
  unfold escape
  rw [characters_append_of_ascii isAscii, List.flatMap_append]

end Go
end Haste
