import Haste.Web.Strings

/-!
# From the browser to the server

A string that the browser puts into a request is written by `JSON.stringify`,
sent as UTF-8 and decoded by `encoding/json`.  What arrives has the code points
of the string, with a replacement character for each surrogate that stands
alone.
-/

namespace Haste
namespace Web

open Go

/-- A code point of a string as it is sent. -/
def piece (point : Nat) : Bytes := (quoteCodePoint point).flatMap encodeRune

/-- What the server reads for a code point. -/
def scalarValue (point : Nat) : Nat :=
  if isSurrogate point then runeError else point

/-- What the server decodes from the literal that the browser sends. -/
def received (s : JsString) : Option Bytes :=
  unquote (utf8Encode (quoteJSONString s))

/-! ## Pieces -/

theorem scalarValue_isScalar
    {point : Nat}
    (inRange : point ≤ 0x10FFFF) :
    IsScalar (scalarValue point) := by
  unfold scalarValue
  split
  case isTrue => exact ⟨by decide, by decide⟩
  case isFalse notSurrogate => exact ⟨inRange, Bool.eq_false_iff.mpr notSurrogate⟩

theorem encodeRune_scalarValue (point : Nat) :
    encodeRune (scalarValue point) = encodeRune point := by
  unfold scalarValue
  split
  case isTrue surrogate => exact (encodeRune_of_isSurrogate surrogate).symm
  case isFalse => rfl

/-- The server reads the escapes of one letter that the browser writes. -/
theorem simpleEscape_of_escapeLetter
    {point letter : Nat}
    (isLetter : escapeLetter point = some letter) :
    point < 0x80 ∧ letter < 0x80 ∧
      simpleEscape (UInt8.ofNat letter) = some (UInt8.ofNat point) := by
  unfold escapeLetter at isLetter
  split_ifs at isLetter with escaped escaped escaped escaped escaped escaped escaped
  all_goals
    rw [escaped, ← Option.some.inj isLetter]
    decide

theorem hexDigit_lt (value : Nat) (isDigit : value < 16) : hexDigit value < 0x80 := by
  unfold hexDigit
  split <;> omega

theorem hexValue_hexDigit :
    ∀ value < 16, hexValue (UInt8.ofNat (hexDigit value)) = some value := by
  decide

/-- The digits of an escape, as they are sent. -/
def hexBytes (point : Nat) : Bytes :=
  [UInt8.ofNat (hexDigit (point / 4096 % 16)),
    UInt8.ofNat (hexDigit (point / 256 % 16)),
    UInt8.ofNat (hexDigit (point / 16 % 16)), UInt8.ofNat (hexDigit (point % 16))]

theorem unicodeEscape_flatMap (point : Nat) :
    (unicodeEscape point).flatMap encodeRune = 0x5C :: 0x75 :: hexBytes point := by
  have digit : ∀ value, encodeRune (hexDigit (value % 16)) =
      [UInt8.ofNat (hexDigit (value % 16))] :=
    fun value => encodeRune_of_lt (hexDigit_lt _ (Nat.mod_lt _ (by decide)))
  simp only [unicodeEscape, List.flatMap_cons, List.flatMap_nil, digit]
  rfl

/-- The value of an escape is read back. -/
theorem getu4_hexBytes
    {point : Nat}
    (isUnit : point < 0x10000)
    (rest : Bytes) :
    getu4 (0x5C :: 0x75 :: hexBytes point ++ rest) = some point := by
  have digit : ∀ value, hexValue (UInt8.ofNat (hexDigit (value % 16))) =
      some (value % 16) :=
    fun value => hexValue_hexDigit _ (Nat.mod_lt _ (by decide))
  simp only [hexBytes, List.cons_append, List.nil_append, getu4, digit,
    Option.bind_eq_bind, Option.bind_some, Option.pure_def, Option.some.injEq]
  omega

/-- A piece is an escape of one letter, an escape of hexadecimal digits, or the
code point itself. -/
theorem piece_cases (point : Nat) :
    (∃ letter, escapeLetter point = some letter ∧
      piece point = [0x5C, UInt8.ofNat letter]) ∨
    (escapeLetter point = none ∧ (point < 0x20 ∨ isSurrogate point = true) ∧
      piece point = 0x5C :: 0x75 :: hexBytes point) ∨
    (escapeLetter point = none ∧ 0x20 ≤ point ∧ isSurrogate point = false ∧
      piece point = encodeRune point) := by
  unfold piece quoteCodePoint
  cases isLetter : escapeLetter point with
  | some letter =>
      obtain ⟨-, isAscii, -⟩ := simpleEscape_of_escapeLetter isLetter
      refine Or.inl ⟨letter, rfl, ?_⟩
      simp only [List.flatMap_cons, List.flatMap_nil, encodeRune_of_lt isAscii]
      rfl
  | none =>
      by_cases escaped : point < 0x20 ∨ isSurrogate point = true
      · refine Or.inr (Or.inl ⟨rfl, escaped, ?_⟩)
        simp only [if_pos escaped, unicodeEscape_flatMap]
      · rw [not_or, not_lt, Bool.not_eq_true] at escaped
        refine Or.inr (Or.inr ⟨rfl, escaped.1, escaped.2, ?_⟩)
        simp only [not_lt.mpr escaped.1, escaped.2, Bool.false_eq_true, or_self,
          if_false, List.flatMap_singleton]

theorem not_escaped
    {point : Nat}
    (noLetter : escapeLetter point = none) :
    point ≠ 0x22 ∧ point ≠ 0x5C := by
  constructor
  · rintro rfl
    cases noLetter
  · rintro rfl
    cases noLetter

/-- What is escaped by digits has a value of four of them. -/
theorem lt_of_escaped
    {point : Nat}
    (escaped : point < 0x20 ∨ isSurrogate point = true) :
    point < 0x10000 := by
  rcases escaped with control | surrogate
  · omega
  · simp only [isSurrogate, Bool.and_eq_true, decide_eq_true_eq] at surrogate
    omega

/-- The server reads a piece as the code point it was made of, or its
replacement, unless it is the first half of a pair with what follows. -/
theorem unquoteStep_piece
    {point : Nat}
    {rest : Bytes}
    (inRange : point ≤ 0x10FFFF)
    (alone : isHighSurrogate point = true →
      ∀ next ∈ getu4 rest, isLowSurrogate next = false) :
    unquoteStep (piece point ++ rest) =
      some (encodeRune point, (piece point).length) := by
  rcases piece_cases point with ⟨letter, isLetter, short⟩ |
    ⟨-, escaped, hex⟩ | ⟨noLetter, printable, notSurrogate, plain⟩
  · obtain ⟨isAscii, -, isSimple⟩ := simpleEscape_of_escapeLetter isLetter
    rw [short, unquoteStep_simple isSimple, encodeRune_of_lt isAscii]
    rfl
  · have isUnit := lt_of_escaped escaped
    rw [hex, unquoteStep_hex rfl (getu4_hexBytes isUnit rest) alone]
    rfl
  · obtain ⟨notQuote, notBackslash⟩ := not_escaped noLetter
    rw [plain]
    exact unquoteStep_encodeRune ⟨inRange, notSurrogate⟩ printable notQuote
      notBackslash rest

/-- An escape of hexadecimal digits starts with a backslash and the letter. -/
theorem exists_of_getu4
    {text : Bytes}
    {value : Nat}
    (escaped : getu4 text = some value) :
    ∃ rest, text = 0x5C :: 0x75 :: rest := by
  unfold getu4 at escaped
  split at escaped
  case h_1 => exact ⟨_, rfl⟩
  case h_2 => cases escaped

/-- Only the escape of a low surrogate looks like one. -/
theorem getu4_piece
    {point : Nat}
    {rest : Bytes}
    (inRange : point ≤ 0x10FFFF)
    (notLow : isLowSurrogate point = false) :
    ∀ next ∈ getu4 (piece point ++ rest), isLowSurrogate next = false := by
  intro next isNext
  obtain ⟨more, looks⟩ := exists_of_getu4 isNext
  rcases piece_cases point with ⟨letter, isLetter, short⟩ |
    ⟨-, escaped, hex⟩ | ⟨noLetter, printable, notSurrogate, plain⟩
  · obtain ⟨-, -, isSimple⟩ := simpleEscape_of_escapeLetter isLetter
    rw [short, List.cons_append, List.cons_append, List.cons.injEq,
      List.cons.injEq] at looks
    rw [looks.2.1] at isSimple
    cases isSimple
  · have isUnit := lt_of_escaped escaped
    rw [hex, getu4_hexBytes isUnit rest, Option.mem_some] at isNext
    rw [← isNext]
    exact notLow
  · have decoded := decodeRune_encodeRune ⟨inRange, notSurrogate⟩ rest
    rw [plain] at looks
    rw [looks] at decoded
    exact absurd (congrArg Prod.fst decoded).symm (not_escaped noLetter).2

/-! ## Literals -/

theorem quoteCodePoint_isScalar
    {point : Nat}
    (inRange : point ≤ 0x10FFFF) :
    ∀ written ∈ quoteCodePoint point, IsScalar written := by
  unfold quoteCodePoint
  cases isLetter : escapeLetter point with
  | some letter =>
      obtain ⟨-, isAscii, -⟩ := simpleEscape_of_escapeLetter isLetter
      intro written isWritten
      rcases List.mem_pair.mp isWritten with rfl | rfl
      · exact isScalar_of_lt (by decide)
      · exact isScalar_of_lt isAscii
  | none =>
      intro written isWritten
      simp only at isWritten
      split at isWritten
      case isTrue =>
        have digit : ∀ value, IsScalar (hexDigit (value % 16)) := fun value =>
          isScalar_of_lt (hexDigit_lt _ (Nat.mod_lt _ (by decide)))
        simp only [unicodeEscape, List.mem_cons, List.not_mem_nil, or_false]
          at isWritten
        rcases isWritten with rfl | rfl | rfl | rfl | rfl | rfl
        · exact isScalar_of_lt (by decide)
        · exact isScalar_of_lt (by decide)
        · exact digit _
        · exact digit _
        · exact digit _
        · exact digit point
      case isFalse escaped =>
        rw [List.mem_singleton.mp isWritten]
        exact ⟨inRange, Bool.eq_false_iff.mpr fun surrogate =>
          escaped (Or.inr surrogate)⟩

/-- The literal of a string, as it is sent: no surrogate is left in it, so none
is lost. -/
theorem utf8Encode_quoteJSONString (s : JsString) :
    utf8Encode (quoteJSONString s) =
      0x22 :: (codePoints s).flatMap piece ++ [0x22] := by
  have scalars : ∀ point ∈ 0x22 :: (codePoints s).flatMap quoteCodePoint ++ [0x22],
      IsScalar point := by
    intro point isWritten
    rcases List.mem_append.mp isWritten with start | stop
    · rcases List.mem_cons.mp start with rfl | written
      · exact isScalar_of_lt (by decide)
      · obtain ⟨source, inText, written⟩ := List.mem_flatMap.mp written
        exact quoteCodePoint_isScalar (codePoints_le s source inText) point
          written
    · rw [List.mem_singleton.mp stop]
      exact isScalar_of_lt (by decide)
  rw [utf8Encode, quoteJSONString, codePoints_encode scalars,
    List.flatMap_append, List.flatMap_cons, List.flatMap_assoc]
  rfl

/-- The server decodes the literal of a string to its code points, with a
replacement character for each surrogate that stands alone. -/
theorem received_eq (s : JsString) :
    received s =
      some (((codePoints s).map scalarValue).flatMap encodeRune) := by
  have nonempty : ∀ point ∈ codePoints s, piece point ≠ [] := by
    intro point _
    rcases piece_cases point with ⟨letter, -, short⟩ | ⟨-, -, hex⟩ |
      ⟨-, -, -, plain⟩
    · rw [short]
      exact List.cons_ne_nil _ _
    · rw [hex]
      exact List.cons_ne_nil _ _
    · rw [plain]
      exact encodeRune_ne_nil point
  have reads : ∀ point rest, point :: rest <:+ codePoints s →
      unquoteStep (piece point ++ rest.flatMap piece) =
        some (encodeRune point, (piece point).length) := by
    intro point rest isSuffix
    have inRange : ∀ other ∈ point :: rest, other ≤ 0x10FFFF :=
      fun other isOther => codePoints_le s other (isSuffix.subset isOther)
    apply unquoteStep_piece (inRange point List.mem_cons_self)
    intro isHigh
    cases rest with
    | nil => exact fun next isNext => absurd isNext (by simp [getu4])
    | cons second rest =>
        have chain := (codePoints_isChain s).suffix isSuffix
        have notLow := (List.isChain_cons_cons.mp chain).1 isHigh
        rw [List.flatMap_cons]
        exact getu4_piece (inRange second (by simp)) notLow
  calc received s
      = unescape ((codePoints s).flatMap piece) := by
        rw [received, utf8Encode_quoteJSONString, unquote_quoted]
    _ = some ((codePoints s).flatMap encodeRune) := by
        rw [unescape, Scanning.scan_flatMap nonempty reads, Option.map_some,
          List.flatMap_def]
    _ = some (((codePoints s).map scalarValue).flatMap encodeRune) := by
        rw [List.flatMap_map]
        simp only [encodeRune_scalarValue]

theorem scalarValues_isScalar (s : JsString) :
    ∀ rune ∈ (codePoints s).map scalarValue, IsScalar rune := by
  intro rune isRune
  obtain ⟨point, inText, rfl⟩ := List.mem_map.mp isRune
  exact scalarValue_isScalar (codePoints_le s point inText)

/-- What the server counts is what the browser counts. -/
theorem runeCount_received
    {s : JsString}
    {text : Bytes}
    (arrives : received s = some text) :
    (runeCount text : Int) = countCodePoints s := by
  rw [received_eq, Option.some.injEq] at arrives
  rw [← arrives, runeCount_encode (scalarValues_isScalar s), List.length_map,
    countCodePoints_eq]

end Web
end Haste
