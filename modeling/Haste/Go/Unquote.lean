import Haste.Go.Utf8

/-!
# Decoding JSON strings

`encoding/json` reads a string literal from left to right: an escape stands for
one character, two escapes of a surrogate pair stand for one together, and a
surrogate without its other half or a byte of no encoding becomes the
replacement character.
-/

namespace Haste
namespace Go

/-- The value of a hexadecimal digit. -/
def hexValue (byte : UInt8) : Option Nat :=
  if between 0x30 0x39 byte then some (byte.toNat - 0x30)
  else if between 0x61 0x66 byte then some (byte.toNat - 0x61 + 10)
  else if between 0x41 0x46 byte then some (byte.toNat - 0x41 + 10)
  else none

/-- `getu4`: the value of a `\u` escape at the start of the text. -/
def getu4 : Bytes → Option Nat
  | 0x5C :: 0x75 :: first :: second :: third :: fourth :: _ => do
      let first ← hexValue first
      let second ← hexValue second
      let third ← hexValue third
      let fourth ← hexValue fourth
      return ((first * 16 + second) * 16 + third) * 16 + fourth
  | _ => none

/-- The first half of a surrogate pair. -/
def isHighSurrogate (rune : Nat) : Bool := 0xD800 ≤ rune && rune < 0xDC00

/-- The second half of a surrogate pair. -/
def isLowSurrogate (rune : Nat) : Bool := 0xDC00 ≤ rune && rune < 0xE000

/-- The character of a surrogate pair. -/
def combine (high low : Nat) : Nat :=
  (high - 0xD800) * 1024 + (low - 0xDC00) + 0x10000

/-- `utf16.DecodeRune`, where a missing half is none. -/
def decodePair (high : Nat) : Option Nat → Nat
  | some low =>
      if isHighSurrogate high && isLowSurrogate low then combine high low
      else runeError
  | none => runeError

/-- The byte that an escape of one letter stands for.  Quotes, the backslash and
the slash stand for themselves; the scanner has refused the apostrophe. -/
def simpleEscape (letter : UInt8) : Option UInt8 :=
  if letter = 0x22 ∨ letter = 0x5C ∨ letter = 0x2F then some letter
  else if letter = 0x62 then some 0x08
  else if letter = 0x66 then some 0x0C
  else if letter = 0x6E then some 0x0A
  else if letter = 0x72 then some 0x0D
  else if letter = 0x74 then some 0x09
  else none

/-- What an escape of hexadecimal digits writes, and how much it takes. -/
def unescapeHex (text : Bytes) : Option (Bytes × Nat) :=
  match getu4 text with
  | none => none
  | some rune =>
      if isSurrogate rune then
        let pair := decodePair rune (getu4 (text.drop 6))
        if pair ≠ runeError then some (encodeRune pair, 12)
        else some (encodeRune runeError, 6)
      else some (encodeRune rune, 6)

/-- One round of the loop of `unquoteBytes`: what is written for the start of the
text, and how much of it that takes. -/
def unquoteStep : Bytes → Option (Bytes × Nat)
  | [] => none
  | first :: rest =>
      if first = 0x5C then
        match rest with
        | [] => none
        | letter :: _ =>
            if letter = 0x75 then unescapeHex (first :: rest)
            else (simpleEscape letter).map fun byte => ([byte], 2)
      else if first = 0x22 ∨ first < 0x20 then none
      else if first < 0x80 then some ([first], 1)
      else
        let decoded := decodeRune (first :: rest)
        some (encodeRune decoded.1, decoded.2)

/-- What stands between the quotes of a literal, decoded. -/
def unescape (text : Bytes) : Option Bytes :=
  (Scanning.scan unquoteStep text).map List.flatten

/-- `unquote`: the text of a literal with its quotes. -/
def unquote (literal : Bytes) : Option Bytes :=
  if literal.length < 2 ∨ literal.head? ≠ some 0x22 ∨
      literal.getLast? ≠ some 0x22 then none
  else unescape literal.tail.dropLast

example : unquote (ascii "\"\\ud83d\\ud83d\\udc4b\"") =
    some [0xEF, 0xBF, 0xBD, 0xF0, 0x9F, 0x91, 0x8B] := by
  decide

theorem unquote_quoted (text : Bytes) :
    unquote (0x22 :: text ++ [0x22]) = unescape text := by
  have last : (0x22 :: text ++ [0x22]).getLast? = some 0x22 :=
    List.getLast?_concat
  have quoted : ¬((0x22 :: text ++ [0x22]).length < 2 ∨
      (0x22 :: text ++ [0x22]).head? ≠ some 0x22 ∨
      (0x22 :: text ++ [0x22]).getLast? ≠ some 0x22) := by
    rw [last]
    simp
  rw [unquote, if_neg quoted, List.cons_append, List.tail_cons,
    List.dropLast_concat]

/-! ## Reading one piece -/

theorem unquoteStep_simple
    {letter byte : UInt8}
    (isSimple : simpleEscape letter = some byte)
    (rest : Bytes) :
    unquoteStep ([0x5C, letter] ++ rest) = some ([byte], 2) := by
  have notHex : letter ≠ 0x75 := by
    rintro rfl
    cases isSimple
  simp only [List.cons_append, List.nil_append, unquoteStep, if_true,
    if_neg notHex, isSimple, Option.map_some]

/-- A character of its own that needs no escape. -/
theorem unquoteStep_encodeRune
    {rune : Nat}
    (isScalar : IsScalar rune)
    (printable : 0x20 ≤ rune)
    (notQuote : rune ≠ 0x22)
    (notBackslash : rune ≠ 0x5C)
    (rest : Bytes) :
    unquoteStep (encodeRune rune ++ rest) =
      some (encodeRune rune, (encodeRune rune).length) := by
  have decoded := decodeRune_encodeRune isScalar rest
  by_cases isAscii : rune < 0x80
  · have single : encodeRune rune = [UInt8.ofNat rune] := if_pos isAscii
    have value : (UInt8.ofNat rune).toNat = rune := toNat_ofNat_of_lt (by omega)
    have isByte : ∀ byte : UInt8, UInt8.ofNat rune = byte ↔ rune = byte.toNat := by
      intro byte
      rw [← UInt8.toNat_inj, value]
    have below : ∀ byte : UInt8, UInt8.ofNat rune < byte ↔ rune < byte.toNat := by
      intro byte
      rw [UInt8.lt_iff_toNat_lt, value]
    rw [single]
    simp only [List.cons_append, List.nil_append, unquoteStep, isByte, below,
      UInt8.reduceToNat, List.length_singleton]
    rw [if_neg notBackslash, if_neg (by omega), if_pos isAscii]
  · obtain ⟨first, more, encoded⟩ := List.exists_cons_of_ne_nil
      (encodeRune_ne_nil rune)
    have notAscii : ¬first < 0x80 := by
      intro firstAscii
      have single : decodeRune (first :: (more ++ rest)) = (first.toNat, 1) :=
        if_pos firstAscii
      rw [encoded, List.cons_append, single, Prod.mk.injEq] at decoded
      rw [UInt8.lt_iff_toNat_lt] at firstAscii
      exact isAscii (decoded.1 ▸ firstAscii)
    have large : ∀ byte : UInt8, byte < 0x80 → first ≠ byte := by
      rintro byte small rfl
      exact notAscii small
    have notControl : ¬first < 0x20 := by
      rw [UInt8.lt_iff_toNat_lt] at notAscii ⊢
      simp only [UInt8.reduceToNat] at notAscii ⊢
      omega
    have notSpecial : ¬(first = 0x22 ∨ first < 0x20) :=
      not_or.mpr ⟨large 0x22 (by decide), notControl⟩
    rw [encoded, List.cons_append] at decoded ⊢
    simp only [unquoteStep, if_neg (large 0x5C (by decide)), if_neg notSpecial,
      if_neg notAscii, decoded, encoded]

theorem decodePair_eq_runeError
    {high : Nat}
    {low : Option Nat}
    (alone : isHighSurrogate high = true →
      ∀ next ∈ low, isLowSurrogate next = false) :
    decodePair high low = runeError := by
  cases low with
  | none => rfl
  | some next =>
      cases isHigh : isHighSurrogate high with
      | false => simp [decodePair, isHigh]
      | true => simp [decodePair, alone isHigh next rfl]

/-- An escape of hexadecimal digits whose character is no half of a pair with
the next one. -/
theorem unquoteStep_hex
    {digits rest : Bytes}
    {rune : Nat}
    (six : digits.length = 4)
    (escaped : getu4 (0x5C :: 0x75 :: digits ++ rest) = some rune)
    (alone : isHighSurrogate rune = true →
      ∀ next ∈ getu4 rest, isLowSurrogate next = false) :
    unquoteStep (0x5C :: 0x75 :: digits ++ rest) =
      some (encodeRune rune, 6) := by
  have after : (0x5C :: 0x75 :: digits ++ rest).drop 6 = rest := by
    rw [List.drop_append_of_le_length (by simp [six])]
    simp [six]
  have step : unquoteStep (0x5C :: 0x75 :: digits ++ rest) =
      unescapeHex (0x5C :: 0x75 :: digits ++ rest) := rfl
  rw [step, unescapeHex, escaped, after]
  cases surrogate : isSurrogate rune with
  | false => simp only [surrogate, Bool.false_eq_true, if_false]
  | true =>
      simp only [surrogate, decodePair_eq_runeError alone, ne_eq,
        not_true_eq_false, if_false, if_true,
        encodeRune_of_isSurrogate surrogate]

end Go
end Haste
