import Haste.Go.Utf8

/-!
# What a text decodes to

Decoding takes ASCII characters, encodings of other characters and single
invalid bytes off the front of a text.  Encoding what was decoded gives the text
back exactly when it is valid.
-/

namespace Haste
namespace Go

/-! ## The encoding of what was decoded -/

theorem ofNat_eq_of_toNat {value : Nat} {byte : UInt8} (same : value = byte.toNat) :
    UInt8.ofNat value = byte := by
  rw [same]
  exact UInt8.ofNat_toNat

/-- A continuation byte is the one with its own six bits. -/
theorem continuation_eq
    (bits : Nat)
    {byte : UInt8}
    (isTail : between 0x80 0xBF byte = true)
    (same : bits % 64 = payload byte) :
    continuation bits = byte := by
  rw [between_iff] at isTail
  simp only [UInt8.reduceToNat] at isTail
  apply ofNat_eq_of_toNat
  unfold payload at same
  omega

theorem encodeRune_two
    {first second : UInt8}
    (isTwo : between 0xC2 0xDF first = true)
    (isTail : between 0x80 0xBF second = true) :
    let rune := first.toNat % 32 * 64 + payload second
    IsScalar rune ∧ 0x80 ≤ rune ∧ encodeRune rune = [first, second] := by
  have tail := continuation_eq (first.toNat % 32 * 64 + payload second) isTail
    (by unfold payload; omega)
  rw [between_iff] at isTwo
  simp only [UInt8.reduceToNat] at isTwo
  have small : payload second < 64 := Nat.mod_lt _ (by decide)
  have lead : UInt8.ofNat (0xC0 + (first.toNat % 32 * 64 + payload second) / 64) =
      first := ofNat_eq_of_toNat (by omega)
  refine ⟨⟨by omega, ?_⟩, by omega, ?_⟩
  · simp only [isSurrogate, Bool.and_eq_false_iff, decide_eq_false_iff_not]
    omega
  · rw [encodeRune, if_neg (by omega), if_pos (by omega), lead, tail]

theorem encodeRune_three
    {first second third : UInt8}
    (isThree : between 0xE0 0xEF first = true)
    (isSecond : between (if first = 0xE0 then 0xA0 else 0x80)
      (if first = 0xED then 0x9F else 0xBF) second = true)
    (isTail : between 0x80 0xBF third = true) :
    let rune := first.toNat % 16 * 4096 + payload second * 64 + payload third
    IsScalar rune ∧ 0x800 ≤ rune ∧ encodeRune rune = [first, second, third] := by
  intro rune
  have tail := continuation_eq rune isTail
    (by simp only [rune, payload]; omega)
  rw [between_iff] at isThree isSecond
  simp only [← UInt8.toNat_inj, apply_ite UInt8.toNat, UInt8.reduceToNat]
    at isThree isSecond
  have isMiddle : between 0x80 0xBF second = true := by
    rw [between_iff]
    simp only [UInt8.reduceToNat]
    split_ifs at isSecond <;> omega
  have middle := continuation_eq (rune / 64) isMiddle
    (by simp only [rune, payload]; omega)
  have lead : UInt8.ofNat (0xE0 + rune / 4096) = first :=
    ofNat_eq_of_toNat (by simp only [rune, payload]; omega)
  have range : 0x800 ≤ rune ∧ rune < 0x10000 ∧ ¬(0xD800 ≤ rune ∧ rune < 0xE000) := by
    simp only [rune, payload]
    split_ifs at isSecond <;> omega
  obtain ⟨low, high, notSurrogate⟩ := range
  have scalar : isSurrogate rune = false := by
    simp only [isSurrogate, Bool.and_eq_false_iff, decide_eq_false_iff_not]
    omega
  refine ⟨⟨by omega, scalar⟩, low, ?_⟩
  rw [encodeRune, if_neg (by omega), if_neg (by omega),
    if_neg (by rw [scalar]; simp; omega), if_pos high, lead, middle, tail]

theorem encodeRune_four
    {first second third fourth : UInt8}
    (isFour : between 0xF0 0xF4 first = true)
    (isSecond : between (if first = 0xF0 then 0x90 else 0x80)
      (if first = 0xF4 then 0x8F else 0xBF) second = true)
    (isThird : between 0x80 0xBF third = true)
    (isTail : between 0x80 0xBF fourth = true) :
    let rune := first.toNat % 8 * 262144 + payload second * 4096 +
      payload third * 64 + payload fourth
    IsScalar rune ∧ 0x10000 ≤ rune ∧
      encodeRune rune = [first, second, third, fourth] := by
  intro rune
  have tail := continuation_eq rune isTail
    (by simp only [rune, payload]; omega)
  have before := continuation_eq (rune / 64) isThird
    (by simp only [rune, payload]; omega)
  rw [between_iff] at isFour isSecond
  simp only [← UInt8.toNat_inj, apply_ite UInt8.toNat, UInt8.reduceToNat]
    at isFour isSecond
  have isMiddle : between 0x80 0xBF second = true := by
    rw [between_iff]
    simp only [UInt8.reduceToNat]
    split_ifs at isSecond <;> omega
  have middle := continuation_eq (rune / 4096) isMiddle
    (by simp only [rune, payload]; omega)
  have lead : UInt8.ofNat (0xF0 + rune / 262144) = first :=
    ofNat_eq_of_toNat (by simp only [rune, payload]; omega)
  have range : 0x10000 ≤ rune ∧ rune ≤ 0x10FFFF := by
    simp only [rune, payload]
    split_ifs at isSecond <;> omega
  have scalar : isSurrogate rune = false := by
    simp only [isSurrogate, Bool.and_eq_false_iff, decide_eq_false_iff_not]
    omega
  refine ⟨⟨range.2, scalar⟩, range.1, ?_⟩
  rw [encodeRune, if_neg (by omega), if_neg (by omega),
    if_neg (by rw [scalar]; simp; omega), if_neg (by omega), lead, middle,
    before, tail]

/-- Decoding takes one ASCII character, one invalid byte, or the encoding of one
other character. -/
theorem decodeRune_cases (first : UInt8) (rest : Bytes) :
    (first < 0x80 ∧ decodeRune (first :: rest) = (first.toNat, 1)) ∨
    (¬first < 0x80 ∧ decodeRune (first :: rest) = (runeError, 1)) ∨
    ∃ rune, IsScalar rune ∧ 0x80 ≤ rune ∧
      encodeRune rune <+: first :: rest ∧
      decodeRune (first :: rest) = (rune, (encodeRune rune).length) := by
  by_cases isAscii : first < 0x80
  · exact Or.inl ⟨isAscii, if_pos isAscii⟩
  right
  by_cases isTwo : between 0xC2 0xDF first = true
  · rcases rest with _ | ⟨second, rest⟩
    · exact Or.inl ⟨isAscii, by simp [decodeRune, isAscii, isTwo]⟩
    · by_cases isTail : between 0x80 0xBF second = true
      · obtain ⟨scalar, large, encoded⟩ := encodeRune_two isTwo isTail
        refine Or.inr ⟨_, scalar, large, ?_, ?_⟩
        · rw [encoded]
          exact ⟨rest, rfl⟩
        · simp [decodeRune, isAscii, isTwo, isTail, encoded]
      · exact Or.inl ⟨isAscii, by simp [decodeRune, isAscii, isTwo, isTail]⟩
  by_cases isThree : between 0xE0 0xEF first = true
  · rcases rest with _ | ⟨second, _ | ⟨third, rest⟩⟩
    · exact Or.inl ⟨isAscii, by simp [decodeRune, isAscii, isTwo, isThree]⟩
    · exact Or.inl ⟨isAscii, by simp [decodeRune, isAscii, isTwo, isThree]⟩
    · by_cases isTail : between (if first = 0xE0 then 0xA0 else 0x80)
          (if first = 0xED then 0x9F else 0xBF) second = true ∧
        between 0x80 0xBF third = true
      · obtain ⟨scalar, large, encoded⟩ :=
          encodeRune_three isThree isTail.1 isTail.2
        refine Or.inr ⟨_, scalar, by omega, ?_, ?_⟩
        · rw [encoded]
          exact ⟨rest, rfl⟩
        · simp [decodeRune, isAscii, isTwo, isThree, isTail, encoded]
      · exact Or.inl ⟨isAscii, by simp [decodeRune, isAscii, isTwo, isThree, isTail]⟩
  by_cases isFour : between 0xF0 0xF4 first = true
  · rcases rest with _ | ⟨second, _ | ⟨third, _ | ⟨fourth, rest⟩⟩⟩
    · exact Or.inl ⟨isAscii, by simp [decodeRune, isAscii, isTwo, isThree, isFour]⟩
    · exact Or.inl ⟨isAscii, by simp [decodeRune, isAscii, isTwo, isThree, isFour]⟩
    · exact Or.inl ⟨isAscii, by simp [decodeRune, isAscii, isTwo, isThree, isFour]⟩
    · by_cases isTail : between (if first = 0xF0 then 0x90 else 0x80)
          (if first = 0xF4 then 0x8F else 0xBF) second = true ∧
        between 0x80 0xBF third = true ∧ between 0x80 0xBF fourth = true
      · obtain ⟨scalar, large, encoded⟩ :=
          encodeRune_four isFour isTail.1 isTail.2.1 isTail.2.2
        refine Or.inr ⟨_, scalar, by omega, ?_, ?_⟩
        · rw [encoded]
          exact ⟨rest, rfl⟩
        · simp [decodeRune, isAscii, isTwo, isThree, isFour, isTail, encoded]
      · refine Or.inl ⟨isAscii, ?_⟩
        rw [not_and_or, not_and_or] at isTail
        rcases isTail with short | short | short <;>
          simp [decodeRune, isAscii, isTwo, isThree, isFour, short]
  · exact Or.inl ⟨isAscii, by simp [decodeRune, isAscii, isTwo, isThree, isFour]⟩

/-! ## The characters of a text -/

/-- A character as it is decoded: from ASCII, from an invalid byte, or from the
encoding of another character. -/
inductive IsDecoded : Nat × Bytes → Prop
  | ascii (byte : UInt8) (isAscii : byte < 0x80) : IsDecoded (byte.toNat, [byte])
  | invalid (byte : UInt8) (notAscii : ¬byte < 0x80) :
      IsDecoded (runeError, [byte])
  | encoded (rune : Nat) (isScalar : IsScalar rune) (notAscii : 0x80 ≤ rune) :
      IsDecoded (rune, encodeRune rune)

theorem readCharacter_isDecoded
    {first : UInt8}
    {rest : Bytes}
    {character : Nat × Bytes}
    {width : Nat}
    (read : readCharacter (first :: rest) = some (character, width)) :
    IsDecoded character ∧ width ≤ 4 := by
  unfold readCharacter at read
  simp only [Option.some.injEq, Prod.mk.injEq] at read
  obtain ⟨rfl, rfl⟩ := read
  rcases decodeRune_cases first rest with
    ⟨isAscii, decoded⟩ | ⟨notAscii, decoded⟩ |
      ⟨rune, isScalar, notAscii, ⟨after, split⟩, decoded⟩
  · rw [decoded]
    exact ⟨.ascii first isAscii, by simp⟩
  · rw [decoded]
    exact ⟨.invalid first notAscii, by simp⟩
  · rw [decoded]
    have taken : (first :: rest).take (encodeRune rune).length =
        encodeRune rune := by
      rw [← split, List.take_left]
    refine ⟨?_, ?_⟩
    · rw [taken]
      exact .encoded rune isScalar notAscii
    · unfold encodeRune
      split_ifs <;> simp

theorem characters_isDecoded (text : Bytes) :
    ∀ character ∈ characters text, IsDecoded character :=
  Scanning.forall_of_scanFrom
    (fun _ _ _ _ read => (readCharacter_isDecoded read).1)
    (scanFrom_readCharacter 0 text)

theorem runeError_isScalar : IsScalar runeError := ⟨by decide, by decide⟩

theorem IsDecoded.isScalar
    {character : Nat × Bytes}
    (isDecoded : IsDecoded character) :
    IsScalar character.1 := by
  cases isDecoded with
  | ascii byte isAscii => exact isScalar_of_lt (UInt8.lt_iff_toNat_lt.mp isAscii)
  | invalid byte notAscii => exact runeError_isScalar
  | encoded rune isScalar notAscii => exact isScalar

/-- The bytes of the characters are the text. -/
theorem characters_flatMap_snd (text : Bytes) :
    (characters text).flatMap Prod.snd = text := by
  have key : ∀ (text : Bytes) (skip : Nat),
      (charactersFrom skip text).flatMap Prod.snd = text.drop skip := by
    intro text
    induction text with
    | nil => intro skip; cases skip <;> rfl
    | cons first rest inductionHypothesis =>
        intro skip
        cases skip with
        | succ skip => exact inductionHypothesis skip
        | zero =>
            obtain ⟨width, isWidth⟩ : ∃ width,
                (decodeRune (first :: rest)).2 = width + 1 := by
              apply Nat.exists_eq_succ_of_ne_zero
              rcases decodeRune_cases first rest with
                ⟨-, decoded⟩ | ⟨-, decoded⟩ | ⟨rune, -, -, -, decoded⟩ <;>
                rw [decoded]
              · exact Nat.one_ne_zero
              · exact Nat.one_ne_zero
              · exact mt List.length_eq_zero_iff.mp (encodeRune_ne_nil rune)
            rw [charactersFrom, List.flatMap_cons, inductionHypothesis, isWidth]
            simp
  exact key text 0

/-- A character takes at most four bytes. -/
theorem length_le_runeCount (text : Bytes) : text.length ≤ 4 * runeCount text := by
  have bound := Scanning.length_le_of_scanFrom (by decide)
    (fun _ _ _ _ read => (readCharacter_isDecoded read).2)
    (scanFrom_readCharacter 0 text)
  rwa [Nat.zero_add] at bound

/-! ## Valid text -/

/-- `utf8.ValidString`: no byte of the text is invalid. -/
def validString (text : Bytes) : Bool :=
  (characters text).all fun character =>
    !(character.1 == runeError && character.2.length == 1)

/-- The characters of a text, encoded: each invalid byte becomes the replacement
character. -/
def reencode (text : Bytes) : Bytes :=
  (characters text).flatMap fun character => encodeRune character.1

example : reencode [0x61, 0xFF] = [0x61, 0xEF, 0xBF, 0xBD] := by decide

theorem IsDecoded.encodeRune_eq
    {character : Nat × Bytes}
    (isDecoded : IsDecoded character)
    (valid : ¬(character.1 = runeError ∧ character.2.length = 1)) :
    encodeRune character.1 = character.2 := by
  cases isDecoded with
  | ascii byte isAscii => exact encodeRune_toNat isAscii
  | invalid byte notAscii => exact absurd ⟨rfl, rfl⟩ valid
  | encoded rune isScalar notAscii => rfl

/-- A text is left as it is exactly when it is valid. -/
theorem reencode_eq_iff (text : Bytes) :
    reencode text = text ↔ validString text = true := by
  have isDecoded := characters_isDecoded text
  have valid_iff : validString text = true ↔ ∀ character ∈ characters text,
      ¬(character.1 = runeError ∧ character.2.length = 1) := by
    simp [validString, List.all_eq_true, imp_iff_not_or]
  rw [valid_iff]
  constructor
  · intro same
    have again : reencode text =
        ((characters text).map Prod.fst).flatMap encodeRune := by
      rw [reencode, List.flatMap_map]
    have scalars : ∀ rune ∈ (characters text).map Prod.fst, IsScalar rune := by
      intro rune isRune
      obtain ⟨character, listed, rfl⟩ := List.mem_map.mp isRune
      exact (isDecoded character listed).isScalar
    have encoded := characters_encode scalars
    rw [← again, same] at encoded
    rintro character listed ⟨isError, single⟩
    rw [encoded] at listed
    obtain ⟨rune, -, rfl⟩ := List.mem_map.mp listed
    have isReplacement : rune = runeError := isError
    rw [isReplacement] at single
    exact absurd single (by decide)
  · intro valid
    calc reencode text
        = (characters text).flatMap Prod.snd :=
          List.flatMap_congr fun character listed =>
            (isDecoded character listed).encodeRune_eq (valid character listed)
      _ = text := characters_flatMap_snd text

end Go
end Haste
