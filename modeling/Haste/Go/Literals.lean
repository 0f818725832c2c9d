import Haste.Go.Json
import Haste.Go.Runes
import Haste.Go.Unquote
import Mathlib.Data.Set.List

/-!
# String literals

Whatever literal is decoded, the text is encoded characters, and no character
takes more than twelve bytes of the literal.  A literal that `encoding/json` has
written decodes to the characters of the text, so to the text itself exactly
when it is valid.
-/

namespace Haste
namespace Go

/-! ## What a literal decodes to -/

/-- A text of one character. -/
def IsEncoded (piece : Bytes) : Prop :=
  ∃ rune, IsScalar rune ∧ encodeRune rune = piece

theorem IsEncoded.of_ascii {byte : UInt8} (isAscii : byte < 0x80) :
    IsEncoded [byte] :=
  ⟨byte.toNat, isScalar_of_lt (UInt8.lt_iff_toNat_lt.mp isAscii),
    encodeRune_toNat isAscii⟩

theorem hexValue_lt {byte : UInt8} {value : Nat}
    (isDigit : hexValue byte = some value) : value < 16 := by
  unfold hexValue at isDigit
  simp only [between_iff, UInt8.reduceToNat] at isDigit
  split_ifs at isDigit <;> cases isDigit <;> omega

theorem getu4_lt
    {text : Bytes}
    {rune : Nat}
    (escaped : getu4 text = some rune) :
    rune < 0x10000 := by
  unfold getu4 at escaped
  split at escaped
  case h_1 first second third fourth rest =>
    simp only [Option.bind_eq_bind, Option.bind_eq_some_iff, Option.pure_def,
      Option.some.injEq] at escaped
    obtain ⟨one, isOne, two, isTwo, three, isThree, four, isFour, rfl⟩ := escaped
    have oneSmall := hexValue_lt isOne
    have twoSmall := hexValue_lt isTwo
    have threeSmall := hexValue_lt isThree
    have fourSmall := hexValue_lt isFour
    omega
  case h_2 => cases escaped

/-- The letters of an escape stand for ASCII characters. -/
theorem simpleEscape_isAscii
    {letter byte : UInt8}
    (isSimple : simpleEscape letter = some byte) :
    byte < 0x80 := by
  unfold simpleEscape at isSimple
  split_ifs at isSimple with itself
  · cases isSimple
    rcases itself with rfl | rfl | rfl <;> decide
  all_goals
    cases isSimple
    decide

/-- A pair that is decoded at all is a scalar value. -/
theorem decodePair_isScalar (high : Nat) (low : Option Nat) :
    IsScalar (decodePair high low) := by
  cases low with
  | none => exact runeError_isScalar
  | some low =>
      simp only [decodePair]
      split
      case isTrue paired =>
        simp only [isHighSurrogate, isLowSurrogate, Bool.and_eq_true,
          decide_eq_true_eq] at paired
        have large : 0xE000 ≤ combine high low :=
          (by decide : 0xE000 ≤ 0x10000).trans (Nat.le_add_left _ _)
        refine ⟨by unfold combine; omega, ?_⟩
        simp only [isSurrogate, Bool.and_eq_false_iff, decide_eq_false_iff_not]
        omega
      case isFalse => exact runeError_isScalar

theorem unescapeHex_isEncoded
    {text piece : Bytes}
    {width : Nat}
    (read : unescapeHex text = some (piece, width)) :
    IsEncoded piece ∧ width ≤ 12 := by
  unfold unescapeHex at read
  cases escaped : getu4 text with
  | none => simp [escaped] at read
  | some rune =>
      have small := getu4_lt escaped
      simp only [escaped] at read
      split_ifs at read with surrogate paired <;> cases read
      · exact ⟨⟨_, decodePair_isScalar _ _, rfl⟩, le_refl _⟩
      · exact ⟨⟨_, runeError_isScalar, rfl⟩, by decide⟩
      · exact ⟨⟨_, ⟨by omega, Bool.eq_false_iff.mpr surrogate⟩, rfl⟩, by decide⟩

/-- Each round writes one character and takes at most twelve bytes. -/
theorem unquoteStep_isEncoded
    (first : UInt8)
    (rest piece : Bytes)
    (width : Nat)
    (read : unquoteStep (first :: rest) = some (piece, width)) :
    IsEncoded piece ∧ width ≤ 12 := by
  simp only [unquoteStep] at read
  split_ifs at read with backslash special isAscii
  · cases rest with
    | nil => cases read
    | cons letter rest =>
        simp only at read
        split_ifs at read with hex
        · exact unescapeHex_isEncoded read
        · simp only [Option.map_eq_some_iff, Prod.mk.injEq] at read
          obtain ⟨byte, isSimple, rfl, rfl⟩ := read
          exact ⟨.of_ascii (simpleEscape_isAscii isSimple), by decide⟩
  · cases read
    exact ⟨.of_ascii isAscii, by decide⟩
  · cases read
    rcases decodeRune_cases first rest with
      ⟨small, -⟩ | ⟨-, decoded⟩ | ⟨rune, isScalar, -, -, decoded⟩
    · exact absurd small isAscii
    · rw [decoded]
      exact ⟨⟨_, runeError_isScalar, rfl⟩, by simp⟩
    · rw [decoded]
      refine ⟨⟨rune, isScalar, rfl⟩, ?_⟩
      simp only
      unfold encodeRune
      split_ifs <;> simp

/-- A literal decodes to encoded characters, each of which takes at most twelve
bytes of it. -/
theorem unescape_eq_some
    {literal text : Bytes}
    (decoded : unescape literal = some text) :
    ∃ runes : List Nat, (∀ rune ∈ runes, IsScalar rune) ∧
      runes.flatMap encodeRune = text ∧ literal.length ≤ 12 * runes.length := by
  obtain ⟨pieces, scanned, rfl⟩ := Option.map_eq_some_iff.mp decoded
  have encoded := Scanning.forall_of_scanFrom
    (fun first rest piece width read =>
      (unquoteStep_isEncoded first rest piece width read).1) scanned
  have narrow := Scanning.length_le_of_scanFrom (by decide)
    (fun first rest piece width read =>
      (unquoteStep_isEncoded first rest piece width read).2) scanned
  have inRange : pieces ∈ Set.range
      (List.map fun rune : Subtype IsScalar => encodeRune rune) := by
    rw [Set.range_list_map]
    intro piece isPiece
    obtain ⟨rune, isScalar, same⟩ := encoded piece isPiece
    exact ⟨⟨rune, isScalar⟩, same⟩
  obtain ⟨runes, rfl⟩ := inRange
  refine ⟨runes.map Subtype.val, ?_, ?_, ?_⟩
  · intro rune isRune
    obtain ⟨scalar, -, rfl⟩ := List.mem_map.mp isRune
    exact scalar.property
  · rw [List.flatMap_map, List.flatMap_def]
  · simpa using narrow

/-- So a literal is at most twelve times as long as the text has characters. -/
theorem length_le_of_unescape
    {literal text : Bytes}
    (decoded : unescape literal = some text) :
    literal.length ≤ 12 * runeCount text := by
  obtain ⟨runes, scalars, rfl, narrow⟩ := unescape_eq_some decoded
  rwa [runeCount_encode scalars]

/-- And the text is valid. -/
theorem reencode_of_unescape
    {literal text : Bytes}
    (decoded : unescape literal = some text) :
    reencode text = text := by
  obtain ⟨runes, scalars, rfl, -⟩ := unescape_eq_some decoded
  rw [reencode, characters_encode scalars, List.flatMap_map]

/-- ASCII text is valid. -/
theorem reencode_of_ascii
    {text : Bytes}
    (isAscii : ∀ byte ∈ text, byte < 0x80) :
    reencode text = text := by
  have encoded : (text.map UInt8.toNat).flatMap encodeRune = text := by
    rw [List.flatMap_map]
    exact (List.flatMap_congr fun byte listed =>
      encodeRune_toNat (isAscii byte listed)).trans (List.flatMap_singleton' text)
  have scalars : ∀ rune ∈ text.map UInt8.toNat, IsScalar rune := by
    intro rune listed
    obtain ⟨byte, isByte, rfl⟩ := List.mem_map.mp listed
    exact isScalar_of_lt (UInt8.lt_iff_toNat_lt.mp (isAscii byte isByte))
  rw [← encoded, reencode, characters_encode scalars, List.flatMap_map]

/-! ## What a written literal decodes to -/

theorem hexValue_digit :
    ∀ value < 16,
      hexValue ((ascii "0123456789abcdef").getD value 0x30) = some value := by
  decide

/-- The escape of an ASCII character by its code. -/
theorem ascii_hexDigits (byte : UInt8) :
    ascii "\\u00" ++ hexDigits byte =
      0x5C :: 0x75 :: ([0x30, 0x30] ++ hexDigits byte) := by
  have start : ascii "\\u00" = [0x5C, 0x75, 0x30, 0x30] := by decide
  rw [start]
  rfl

/-- The code is read back. -/
theorem getu4_hexDigits (byte : UInt8) (rest : Bytes) :
    getu4 (0x5C :: 0x75 :: ([0x30, 0x30] ++ hexDigits byte) ++ rest) =
      some byte.toNat := by
  have small := byte.toNat_lt
  have high := hexValue_digit (byte.toNat / 16) (by omega)
  have low := hexValue_digit (byte.toNat % 16) (Nat.mod_lt _ (by decide))
  have zero : hexValue 0x30 = some 0 := by decide
  simp only [hexDigits, List.cons_append, List.nil_append, getu4, zero, high, low,
    Option.bind_eq_bind, Option.bind_some, Option.pure_def, Option.some.injEq]
  omega

/-- A written ASCII character is an escape of one letter, the escape of its code,
or the character itself. -/
theorem escapeASCII_cases (byte : UInt8) :
    (∃ letter, simpleEscape letter = some byte ∧
      escapeASCII byte = [0x5C, letter]) ∨
    escapeASCII byte = 0x5C :: 0x75 :: ([0x30, 0x30] ++ hexDigits byte) ∨
    (0x20 ≤ byte ∧ byte ≠ 0x22 ∧ byte ≠ 0x5C ∧ escapeASCII byte = [byte]) := by
  unfold escapeASCII
  split_ifs with itself backspace feed newline carriage tab special
  · refine Or.inl ⟨byte, ?_, rfl⟩
    rcases itself with rfl | rfl <;> rfl
  · exact Or.inl ⟨0x62, by rw [backspace]; rfl, rfl⟩
  · exact Or.inl ⟨0x66, by rw [feed]; rfl, rfl⟩
  · exact Or.inl ⟨0x6E, by rw [newline]; rfl, rfl⟩
  · exact Or.inl ⟨0x72, by rw [carriage]; rfl, rfl⟩
  · exact Or.inl ⟨0x74, by rw [tab]; rfl, rfl⟩
  · exact Or.inr (Or.inl (ascii_hexDigits byte))
  · rw [not_or] at itself special
    exact Or.inr (Or.inr
      ⟨UInt8.not_lt.mp special.1, itself.2, itself.1, rfl⟩)

/-- A scalar value is no half of a surrogate pair. -/
theorem IsScalar.not_high
    {rune : Nat}
    (isScalar : IsScalar rune)
    (isHigh : isHighSurrogate rune = true) :
    False := by
  have notSurrogate := isScalar.2
  simp only [isSurrogate, isHighSurrogate, Bool.and_eq_false_iff, Bool.and_eq_true,
    decide_eq_false_iff_not, decide_eq_true_eq] at notSurrogate isHigh
  omega

theorem unquoteStep_escapeASCII
    {byte : UInt8}
    (isAscii : byte < 0x80)
    (rest : Bytes) :
    unquoteStep (escapeASCII byte ++ rest) =
      some ([byte], (escapeASCII byte).length) := by
  have isScalar := isScalar_of_lt (UInt8.lt_iff_toNat_lt.mp isAscii)
  have encoded := encodeRune_toNat isAscii
  rcases escapeASCII_cases byte with
    ⟨letter, isSimple, short⟩ | hex | ⟨printable, notQuote, notBackslash, plain⟩
  · rw [short]
    exact unquoteStep_simple isSimple rest
  · rw [hex, ← encoded]
    exact unquoteStep_hex rfl (getu4_hexDigits byte rest)
      fun isHigh => (isScalar.not_high isHigh).elim
  · have isOther : ∀ other : UInt8, byte ≠ other → byte.toNat ≠ other.toNat :=
      fun _ => mt UInt8.toNat_inj.mp
    rw [plain, ← encoded]
    exact unquoteStep_encodeRune isScalar (UInt8.le_iff_toNat_le.mp printable)
      (isOther 0x22 notQuote) (isOther 0x5C notBackslash) rest

/-- A character that is no ASCII is written as it is, or is a separator. -/
theorem escapeCharacter_encodeRune {rune : Nat} (notAscii : 0x80 ≤ rune) :
    escapeCharacter (rune, encodeRune rune) =
      if rune = 0x2028 then ascii "\\u2028"
      else if rune = 0x2029 then ascii "\\u2029"
      else encodeRune rune := by
  have several : (encodeRune rune).length ≠ 1 := by
    unfold encodeRune
    rw [if_neg (Nat.not_lt.mpr notAscii)]
    split_ifs <;> simp
  unfold escapeCharacter
  split
  case h_1 byte single =>
    exact absurd (congrArg List.length single) several
  case h_2 => rfl

/-- Each written character is read back, whatever follows: an invalid byte as the
replacement character. -/
theorem unquoteStep_escapeCharacter
    {character : Nat × Bytes}
    (isDecoded : IsDecoded character)
    (rest : Bytes) :
    unquoteStep (escapeCharacter character ++ rest) =
      some (encodeRune character.1, (escapeCharacter character).length) := by
  have isScalar := isDecoded.isScalar
  have hex : ∀ digits : Bytes, digits.length = 4 →
      getu4 (0x5C :: 0x75 :: digits ++ rest) = some character.1 →
      unquoteStep (0x5C :: 0x75 :: digits ++ rest) =
        some (encodeRune character.1, 6) :=
    fun digits four escaped => unquoteStep_hex four escaped
      fun isHigh => (isScalar.not_high isHigh).elim
  cases isDecoded with
  | ascii byte isAscii =>
      have written : escapeCharacter (byte.toNat, [byte]) = escapeASCII byte :=
        if_pos isAscii
      rw [written, encodeRune_toNat isAscii]
      exact unquoteStep_escapeASCII isAscii rest
  | invalid byte notAscii =>
      have written : escapeCharacter (runeError, [byte]) = ascii "\\ufffd" :=
        if_neg notAscii
      rw [written]
      exact hex (ascii "fffd") rfl rfl
  | encoded rune _ notAscii =>
      rw [escapeCharacter_encodeRune notAscii]
      split_ifs with line paragraph
      · rw [line] at hex ⊢
        exact hex (ascii "2028") rfl rfl
      · rw [paragraph] at hex ⊢
        exact hex (ascii "2029") rfl rfl
      · exact unquoteStep_encodeRune isScalar (by omega) (by omega) (by omega) rest

/-- A written literal decodes to the characters of its text, which are the text
when it is valid. -/
theorem unescape_escape (text : Bytes) :
    unescape (escape text) = some (reencode text) := by
  have isDecoded := characters_isDecoded text
  have nonempty : ∀ character ∈ characters text,
      escapeCharacter character ≠ [] := by
    intro character listed empty
    have read := unquoteStep_escapeCharacter (isDecoded character listed) []
    rw [empty] at read
    cases read
  have reads : ∀ character rest, character :: rest <:+ characters text →
      unquoteStep (escapeCharacter character ++ rest.flatMap escapeCharacter) =
        some (encodeRune character.1, (escapeCharacter character).length) :=
    fun character rest isSuffix => unquoteStep_escapeCharacter
      (isDecoded character (isSuffix.subset List.mem_cons_self)) _
  rw [unescape, escape, Scanning.scan_flatMap nonempty reads]
  rfl

end Go
end Haste
