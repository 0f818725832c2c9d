import Haste.Foundation.Scanning
import Haste.Go.Strings
import Mathlib.Tactic.SplitIfs

/-!
# Encoding UTF-8

A character is encoded by one to four bytes, and decoding text that was encoded
gives the characters back.
-/

namespace Haste
namespace Go

/-- `utf16.IsSurrogate`. -/
def isSurrogate (rune : Nat) : Bool := 0xD800 ≤ rune && rune < 0xE000

/-- A Unicode scalar value. -/
def IsScalar (rune : Nat) : Prop := rune ≤ 0x10FFFF ∧ isSurrogate rune = false

/-- A continuation byte with these six bits. -/
def continuation (bits : Nat) : UInt8 := UInt8.ofNat (0x80 + bits % 64)

/-- `utf8.EncodeRune`: a value that is no scalar is encoded as the replacement
character. -/
def encodeRune (rune : Nat) : Bytes :=
  if rune < 0x80 then [UInt8.ofNat rune]
  else if rune < 0x800 then
    [UInt8.ofNat (0xC0 + rune / 64), continuation rune]
  else if 0x10FFFF < rune ∨ isSurrogate rune = true then [0xEF, 0xBF, 0xBD]
  else if rune < 0x10000 then
    [UInt8.ofNat (0xE0 + rune / 4096), continuation (rune / 64),
      continuation rune]
  else
    [UInt8.ofNat (0xF0 + rune / 262144), continuation (rune / 4096),
      continuation (rune / 64), continuation rune]

example : encodeRune 0x1F44B = [0xF0, 0x9F, 0x91, 0x8B] := by decide

theorem encodeRune_ne_nil (rune : Nat) : encodeRune rune ≠ [] := by
  unfold encodeRune
  split_ifs <;> exact List.cons_ne_nil _ _

theorem isScalar_of_lt {rune : Nat} (isAscii : rune < 0x80) : IsScalar rune := by
  refine ⟨by omega, ?_⟩
  simp only [isSurrogate, Bool.and_eq_false_iff, decide_eq_false_iff_not]
  omega

theorem encodeRune_of_lt
    {rune : Nat}
    (isAscii : rune < 0x80) :
    encodeRune rune = [UInt8.ofNat rune] :=
  if_pos isAscii

/-- An ASCII character is its own encoding. -/
theorem encodeRune_toNat
    {byte : UInt8}
    (isAscii : byte < 0x80) :
    encodeRune byte.toNat = [byte] := by
  rw [encodeRune_of_lt (UInt8.lt_iff_toNat_lt.mp isAscii), UInt8.ofNat_toNat]

/-- The replacement character stands for a surrogate. -/
theorem encodeRune_of_isSurrogate
    {rune : Nat}
    (surrogate : isSurrogate rune = true) :
    encodeRune rune = encodeRune runeError := by
  have large : 0xD800 ≤ rune := by
    simp only [isSurrogate, Bool.and_eq_true, decide_eq_true_eq] at surrogate
    exact surrogate.1
  unfold encodeRune
  rw [if_neg (by omega), if_neg (by omega), if_pos (Or.inr surrogate)]
  rfl

theorem between_iff (low high byte : UInt8) :
    between low high byte = true ↔
      low.toNat ≤ byte.toNat ∧ byte.toNat ≤ high.toNat := by
  simp [between, UInt8.le_iff_toNat_le]

theorem toNat_ofNat_of_lt {value : Nat} (isByte : value < 256) :
    (UInt8.ofNat value).toNat = value := by
  rw [UInt8.toNat_ofNat']
  exact Nat.mod_eq_of_lt isByte

theorem toNat_continuation (bits : Nat) :
    (continuation bits).toNat = 0x80 + bits % 64 :=
  toNat_ofNat_of_lt (by omega)

@[simp] theorem payload_continuation (bits : Nat) :
    payload (continuation bits) = bits % 64 := by
  rw [payload, toNat_continuation]
  omega

@[simp] theorem between_continuation (bits : Nat) :
    between 0x80 0xBF (continuation bits) = true := by
  rw [between_iff, toNat_continuation]
  simp only [UInt8.reduceToNat]
  omega

theorem between_of_gt
    {high byte : UInt8}
    (above : high.toNat < byte.toNat)
    (low : UInt8) :
    between low high byte = false := by
  rw [← Bool.not_eq_true, between_iff]
  omega

/-- A leading byte of an encoding is no ASCII character. -/
theorem not_isAscii {byte : UInt8} (isLead : 0x80 ≤ byte.toNat) : ¬byte < 0x80 := by
  rw [UInt8.lt_iff_toNat_lt]
  exact not_lt.mpr isLead

section Widths

variable {rune : Nat} (rest : Bytes)

theorem decodeRune_two
    (atLeast : 0x80 ≤ rune)
    (below : rune < 0x800) :
    decodeRune (UInt8.ofNat (0xC0 + rune / 64) :: continuation rune :: rest) =
      (rune, 2) := by
  have lead : (UInt8.ofNat (0xC0 + rune / 64)).toNat = 0xC0 + rune / 64 :=
    toNat_ofNat_of_lt (by omega)
  have notAscii := not_isAscii (lead.symm ▸ (by omega : 0x80 ≤ 0xC0 + rune / 64))
  have isTwo : between 0xC2 0xDF (UInt8.ofNat (0xC0 + rune / 64)) = true := by
    rw [between_iff, lead]
    simp only [UInt8.reduceToNat]
    omega
  simp only [decodeRune, if_neg notAscii, if_pos isTwo, between_continuation,
    if_true, lead, payload_continuation, Prod.mk.injEq, and_true]
  omega

theorem decodeRune_three
    (atLeast : 0x800 ≤ rune)
    (below : rune < 0x10000)
    (notSurrogate : isSurrogate rune = false) :
    decodeRune (UInt8.ofNat (0xE0 + rune / 4096) :: continuation (rune / 64) ::
      continuation rune :: rest) = (rune, 3) := by
  have lead : (UInt8.ofNat (0xE0 + rune / 4096)).toNat = 0xE0 + rune / 4096 :=
    toNat_ofNat_of_lt (by omega)
  have notAscii := not_isAscii
    (lead.symm ▸ (by omega : 0x80 ≤ 0xE0 + rune / 4096))
  have notTwo : between 0xC2 0xDF (UInt8.ofNat (0xE0 + rune / 4096)) = false := by
    apply between_of_gt
    rw [lead]
    simp only [UInt8.reduceToNat]
    omega
  have isThree : between 0xE0 0xEF (UInt8.ofNat (0xE0 + rune / 4096)) = true := by
    rw [between_iff, lead]
    simp only [UInt8.reduceToNat]
    omega
  -- No shorter encoding and no surrogate: the second byte is in its range.
  have second : between
      (if UInt8.ofNat (0xE0 + rune / 4096) = 0xE0 then 0xA0 else 0x80)
      (if UInt8.ofNat (0xE0 + rune / 4096) = 0xED then 0x9F else 0xBF)
      (continuation (rune / 64)) = true := by
    simp only [isSurrogate, Bool.and_eq_false_iff, decide_eq_false_iff_not]
      at notSurrogate
    rw [between_iff, toNat_continuation]
    simp only [← UInt8.toNat_inj, lead, apply_ite UInt8.toNat,
      UInt8.reduceToNat]
    split_ifs <;> omega
  simp only [decodeRune, if_neg notAscii, notTwo, Bool.false_eq_true, if_false,
    if_pos isThree, second, between_continuation, Bool.and_self, if_true, lead,
    payload_continuation, Prod.mk.injEq, and_true]
  omega

theorem decodeRune_four
    (atLeast : 0x10000 ≤ rune)
    (inRange : rune ≤ 0x10FFFF) :
    decodeRune (UInt8.ofNat (0xF0 + rune / 262144) ::
      continuation (rune / 4096) :: continuation (rune / 64) ::
      continuation rune :: rest) = (rune, 4) := by
  have lead : (UInt8.ofNat (0xF0 + rune / 262144)).toNat = 0xF0 + rune / 262144 :=
    toNat_ofNat_of_lt (by omega)
  have notAscii := not_isAscii
    (lead.symm ▸ (by omega : 0x80 ≤ 0xF0 + rune / 262144))
  have notTwo : between 0xC2 0xDF (UInt8.ofNat (0xF0 + rune / 262144)) = false := by
    apply between_of_gt
    rw [lead]
    simp only [UInt8.reduceToNat]
    omega
  have notThree : between 0xE0 0xEF (UInt8.ofNat (0xF0 + rune / 262144)) =
      false := by
    apply between_of_gt
    rw [lead]
    simp only [UInt8.reduceToNat]
    omega
  have isFour : between 0xF0 0xF4 (UInt8.ofNat (0xF0 + rune / 262144)) = true := by
    rw [between_iff, lead]
    simp only [UInt8.reduceToNat]
    omega
  -- No shorter encoding and no value out of range.
  have second : between
      (if UInt8.ofNat (0xF0 + rune / 262144) = 0xF0 then 0x90 else 0x80)
      (if UInt8.ofNat (0xF0 + rune / 262144) = 0xF4 then 0x8F else 0xBF)
      (continuation (rune / 4096)) = true := by
    rw [between_iff, toNat_continuation]
    simp only [← UInt8.toNat_inj, lead, apply_ite UInt8.toNat,
      UInt8.reduceToNat]
    split_ifs <;> omega
  simp only [decodeRune, if_neg notAscii, notTwo, notThree, Bool.false_eq_true,
    if_false, if_pos isFour, second, between_continuation, Bool.and_self,
    if_true, lead, payload_continuation, Prod.mk.injEq, and_true]
  omega

end Widths

/-- A scalar value that was encoded is decoded again, whatever follows. -/
theorem decodeRune_encodeRune
    {rune : Nat}
    (isScalar : IsScalar rune)
    (rest : Bytes) :
    decodeRune (encodeRune rune ++ rest) = (rune, (encodeRune rune).length) := by
  obtain ⟨inRange, notSurrogate⟩ := isScalar
  have valid : ¬(0x10FFFF < rune ∨ isSurrogate rune = true) := by
    simp [notSurrogate, inRange]
  unfold encodeRune
  split_ifs with one two three
  · have isByte : (UInt8.ofNat rune).toNat = rune := toNat_ofNat_of_lt (by omega)
    have isAscii : UInt8.ofNat rune < 0x80 := by
      rw [UInt8.lt_iff_toNat_lt, isByte]
      exact one
    simp only [List.cons_append, List.nil_append, decodeRune, if_pos isAscii,
      isByte, List.length_singleton]
  · exact decodeRune_two rest (not_lt.mp one) two
  · exact decodeRune_three rest (not_lt.mp two) three notSurrogate
  · exact decodeRune_four rest (not_lt.mp three) inRange

/-! ## Decoding a text -/

/-- The characters of a text, as a scan. -/
def readCharacter (text : Bytes) : Option ((Nat × Bytes) × Nat) :=
  some (((decodeRune text).1, text.take (decodeRune text).2), (decodeRune text).2)

theorem scanFrom_readCharacter (skip : Nat) (text : Bytes) :
    Scanning.scanFrom readCharacter skip text = some (charactersFrom skip text) := by
  induction text generalizing skip with
  | nil => cases skip <;> rfl
  | cons first rest inductionHypothesis =>
      cases skip with
      | succ skip => exact inductionHypothesis skip
      | zero =>
          simp only [Scanning.scanFrom, readCharacter, inductionHypothesis]
          rfl

/-- The characters of encoded text are the ones that were encoded. -/
theorem characters_encode
    {runes : List Nat}
    (scalars : ∀ rune ∈ runes, IsScalar rune) :
    characters (runes.flatMap encodeRune) =
      runes.map fun rune => (rune, encodeRune rune) := by
  apply Option.some.inj
  calc some (characters (runes.flatMap encodeRune))
      = Scanning.scan readCharacter (runes.flatMap encodeRune) :=
        (scanFrom_readCharacter 0 _).symm
    _ = some (runes.map fun rune => (rune, encodeRune rune)) := by
        apply Scanning.scan_flatMap
        · exact fun rune _ => encodeRune_ne_nil rune
        · intro rune rest isSuffix
          have isScalar := scalars rune (isSuffix.subset List.mem_cons_self)
          rw [readCharacter, decodeRune_encodeRune isScalar,
            List.take_left]

/-- Go counts the characters that were encoded. -/
theorem runeCount_encode
    {runes : List Nat}
    (scalars : ∀ rune ∈ runes, IsScalar rune) :
    runeCount (runes.flatMap encodeRune) = runes.length := by
  rw [runeCount, characters_encode scalars, List.length_map]

/-- Trimming encoded text drops characters of it. -/
theorem runeCount_trimSpace_encode_le
    {runes : List Nat}
    (scalars : ∀ rune ∈ runes, IsScalar rune) :
    runeCount (trimSpace (runes.flatMap encodeRune)) ≤ runes.length := by
  unfold trimSpace
  rw [characters_encode scalars]
  have within := (List.rdropWhile_prefix
    (fun character : Nat × Bytes => isSpace character.1)
    ((runes.map fun rune => (rune, encodeRune rune)).dropWhile
      fun character => isSpace character.1)).sublist.trans
        (List.dropWhile_sublist _)
  obtain ⟨kept, isSublist, same⟩ := List.sublist_map_iff.mp within
  have keptScalars : ∀ rune ∈ kept, IsScalar rune :=
    fun rune isKept => scalars rune (isSublist.subset isKept)
  rw [same, List.flatMap_map]
  exact (runeCount_encode keptScalars).trans_le isSublist.length_le

end Go
end Haste
