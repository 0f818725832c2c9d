import Haste.Go.Digits
import Haste.Go.Literals

/-!
# JSON documents

`encoding/json` checks a document from left to right before it decodes it.  A
document is one value with nothing but blanks around it; strings and numbers
are kept as they are written.
-/

namespace Haste
namespace Go

/-- A JSON value. -/
inductive Json
  | null
  | boolean (value : Bool)
  | number (text : Bytes)
  /-- What stands between the quotes. -/
  | string (literal : Bytes)
  | array (elements : List Json)
  | object (members : List (Bytes × Json))

/-- `isSpace` of the scanner. -/
def isBlank (byte : UInt8) : Bool :=
  byte == 0x20 || byte == 0x09 || byte == 0x0D || byte == 0x0A

/-- The text after its blanks. -/
def skipBlank (text : Bytes) : Bytes := text.dropWhile isBlank

/-- What follows this mark, which blanks may precede. -/
def expect (mark : UInt8) (text : Bytes) : Option Bytes :=
  match skipBlank text with
  | [] => none
  | first :: rest => if first = mark then some rest else none

/-- The literal whose opening quote was passed, and what follows it. -/
def readString (text : Bytes) : Option (Bytes × Bytes) :=
  Scanning.scanTo unquoteStep (· == 0x22) 0 text

/-! ## Numbers -/

/-- One of these bytes, where the text starts with one. -/
def takeOne (choices : Bytes) : Bytes → Bytes × Bytes
  | [] => ([], [])
  | first :: rest =>
      if choices.contains first then ([first], rest) else ([], first :: rest)

/-- Digits, of which there has to be one. -/
def readDigits (text : Bytes) : Option (Bytes × Bytes) :=
  if text.takeWhile isDigit = [] then none
  else some (text.takeWhile isDigit, text.dropWhile isDigit)

/-- The digits before the point: nothing follows a leading zero. -/
def readWhole : Bytes → Option (Bytes × Bytes)
  | [] => none
  | first :: rest =>
      if first = 0x30 then some ([0x30], rest) else readDigits (first :: rest)

/-- The point and the digits after it, if there are any. -/
def readFraction : Bytes → Option (Bytes × Bytes)
  | [] => some ([], [])
  | first :: rest =>
      if first = 0x2E then
        (readDigits rest).map fun parts => (0x2E :: parts.1, parts.2)
      else some ([], first :: rest)

/-- The exponent, if there is one. -/
def readExponent : Bytes → Option (Bytes × Bytes)
  | [] => some ([], [])
  | first :: rest =>
      if first = 0x65 ∨ first = 0x45 then
        let sign := takeOne [0x2B, 0x2D] rest
        (readDigits sign.2).map fun parts =>
          (first :: sign.1 ++ parts.1, parts.2)
      else some ([], first :: rest)

/-- A number, and what follows it. -/
def readNumber (text : Bytes) : Option (Bytes × Bytes) :=
  let sign := takeOne [0x2D] text
  (readWhole sign.2).bind fun whole =>
    (readFraction whole.2).bind fun fraction =>
      (readExponent fraction.2).map fun exponent =>
        (sign.1 ++ whole.1 ++ fraction.1 ++ exponent.1, exponent.2)

/-! ## Values -/

/-- The values that are written as a word. -/
def words : List (Bytes × Json) :=
  [(ascii "null", .null), (ascii "true", .boolean true),
    (ascii "false", .boolean false)]

/-- A word or a number, and what follows it. -/
def readWord (text : Bytes) : Option (Json × Bytes) :=
  match words.find? fun word => hasPrefix text word.1 with
  | some word => some (word.2, text.drop word.1.length)
  | none => (readNumber text).map fun parts => (.number parts.1, parts.2)

mutual

/-- The value that the text starts with, and what follows it.  The first argument
bounds the recursion, the second one counts the objects and arrays that may
still be opened. -/
def readValue : Nat → Nat → Bytes → Option (Json × Bytes)
  | 0, _, _ => none
  | _ + 1, _, [] => none
  | fuel + 1, depth, first :: rest =>
      if first = 0x22 then
        (readString rest).map fun parts => (.string parts.1, parts.2)
      else if first = 0x7B then
        match depth with
        | 0 => none
        | depth + 1 =>
            match expect 0x7D rest with
            | some rest => some (.object [], rest)
            | none =>
                (readMembers fuel depth rest).map fun parts =>
                  (.object parts.1, parts.2)
      else if first = 0x5B then
        match depth with
        | 0 => none
        | depth + 1 =>
            match expect 0x5D rest with
            | some rest => some (.array [], rest)
            | none =>
                (readElements fuel depth rest).map fun parts =>
                  (.array parts.1, parts.2)
      else readWord (first :: rest)

/-- The members of an object that has some, and what follows it. -/
def readMembers : Nat → Nat → Bytes → Option (List (Bytes × Json) × Bytes)
  | 0, _, _ => none
  | fuel + 1, depth, text =>
      (expect 0x22 text).bind fun text =>
        (readString text).bind fun name =>
          (expect 0x3A name.2).bind fun text =>
            (readValue fuel depth (skipBlank text)).bind fun value =>
              match expect 0x2C value.2 with
              | some text =>
                  (readMembers fuel depth text).map fun parts =>
                    ((name.1, value.1) :: parts.1, parts.2)
              | none =>
                  (expect 0x7D value.2).map fun text =>
                    ([(name.1, value.1)], text)

/-- The elements of an array that has some, and what follows it. -/
def readElements : Nat → Nat → Bytes → Option (List Json × Bytes)
  | 0, _, _ => none
  | fuel + 1, depth, text =>
      (readValue fuel depth (skipBlank text)).bind fun value =>
        match expect 0x2C value.2 with
        | some text =>
            (readElements fuel depth text).map fun parts =>
              (value.1 :: parts.1, parts.2)
        | none => (expect 0x5D value.2).map fun text => ([value.1], text)

end

/-- `maxNestingDepth`. -/
def maxNestingDepth : Nat := 10000

/-- The value of a document.  Two rounds of the recursion pass a byte. -/
def readDocument (text : Bytes) : Option Json :=
  match readValue (2 * text.length) maxNestingDepth (skipBlank text) with
  | none => none
  | some (value, rest) => if skipBlank rest = [] then some value else none

/-! ## What follows a number -/

/-- A byte that may follow a value. -/
def isDelimiter (byte : UInt8) : Bool :=
  byte == 0x2C || byte == 0x7D || byte == 0x5D || isBlank byte

/-- Nothing follows, or a byte that may follow a value. -/
def AtEnd (rest : Bytes) : Prop := ∀ first ∈ rest.head?, isDelimiter first = true

theorem isDelimiter_cases {byte : UInt8} (ends : isDelimiter byte = true) :
    byte = 0x2C ∨ byte = 0x7D ∨ byte = 0x5D ∨ byte = 0x20 ∨ byte = 0x09 ∨
      byte = 0x0D ∨ byte = 0x0A := by
  simpa [isDelimiter, isBlank, or_assoc] using ends

/-- A reader that stops before what may follow a value. -/
def StopsAtEnd (read : Bytes → Option (Bytes × Bytes)) : Prop :=
  ∀ text rest, AtEnd rest →
    read (text ++ rest) = (read text).map fun parts => (parts.1, parts.2 ++ rest)

theorem takeOne_append
    {choices : Bytes}
    (noDelimiter : choices.any isDelimiter = false)
    (text : Bytes)
    {rest : Bytes}
    (atEnd : AtEnd rest) :
    takeOne choices (text ++ rest) =
      ((takeOne choices text).1, (takeOne choices text).2 ++ rest) := by
  cases text with
  | cons first text =>
      rw [List.cons_append, takeOne, takeOne]
      split <;> rfl
  | nil =>
      cases rest with
      | nil => rfl
      | cons first rest =>
          have ends : isDelimiter first = true := atEnd first rfl
          have free : first ∉ choices :=
            fun listed => List.any_eq_false.mp noDelimiter first listed ends
          simp [takeOne, free]

theorem readDigits_stops : StopsAtEnd readDigits := by
  intro text rest atEnd
  have noDigit : ∀ first ∈ rest.head?, isDigit first = false := by
    intro first isFirst
    rcases isDelimiter_cases (atEnd first isFirst) with
      rfl | rfl | rfl | rfl | rfl | rfl | rfl <;> decide
  have taken : (text ++ rest).takeWhile isDigit = text.takeWhile isDigit ∧
      (text ++ rest).dropWhile isDigit = text.dropWhile isDigit ++ rest := by
    induction text with
    | nil =>
        cases rest with
        | nil => exact ⟨rfl, rfl⟩
        | cons first rest =>
            have stops := noDigit first rfl
            simp [stops]
    | cons first text inductionHypothesis =>
        by_cases digit : isDigit first = true
        · simp [digit, inductionHypothesis]
        · simp [digit]
  unfold readDigits
  rw [taken.1, taken.2]
  split <;> rfl

theorem readWhole_stops : StopsAtEnd readWhole := by
  intro text rest atEnd
  cases text with
  | cons first text =>
      rw [List.cons_append, readWhole, readWhole]
      split
      · rfl
      · exact readDigits_stops (first :: text) rest atEnd
  | nil =>
      have none : readDigits rest = none := readDigits_stops [] rest atEnd
      cases rest with
      | nil => rfl
      | cons first rest =>
          have notZero : first ≠ 0x30 := by
            rintro rfl
            exact absurd (atEnd 0x30 rfl) (by decide)
          simp [readWhole, notZero, none]

theorem readFraction_stops : StopsAtEnd readFraction := by
  intro text rest atEnd
  cases text with
  | cons first text =>
      rw [List.cons_append, readFraction, readFraction]
      split
      · rw [readDigits_stops text rest atEnd, Option.map_map, Option.map_map]
        rfl
      · rfl
  | nil =>
      cases rest with
      | nil => rfl
      | cons first rest =>
          have notPoint : first ≠ 0x2E := by
            rintro rfl
            exact absurd (atEnd 0x2E rfl) (by decide)
          simp [readFraction, notPoint]

theorem readExponent_stops : StopsAtEnd readExponent := by
  intro text rest atEnd
  cases text with
  | cons first text =>
      rw [List.cons_append, readExponent, readExponent]
      split
      · have signs : [0x2B, 0x2D].any isDelimiter = false := by decide
        simp only [takeOne_append signs text atEnd,
          readDigits_stops _ rest atEnd, Option.map_map]
        rfl
      · rfl
  | nil =>
      cases rest with
      | nil => rfl
      | cons first rest =>
          have notLetter : ¬(first = 0x65 ∨ first = 0x45) := by
            rintro (rfl | rfl)
            · exact absurd (atEnd 0x65 rfl) (by decide)
            · exact absurd (atEnd 0x45 rfl) (by decide)
          simp [readExponent, notLetter]

theorem readNumber_stops : StopsAtEnd readNumber := by
  intro text rest atEnd
  unfold readNumber
  rw [takeOne_append (by decide) text atEnd]
  simp only [readWhole_stops _ rest atEnd]
  cases readWhole (takeOne [0x2D] text).2 with
  | none => rfl
  | some whole =>
      simp only [Option.map_some, Option.bind_some, readFraction_stops _ rest atEnd]
      cases readFraction whole.2 with
      | none => rfl
      | some fraction =>
          simp only [Option.map_some, Option.bind_some,
            readExponent_stops _ rest atEnd, Option.map_map]
          rfl

/-! ## Integers -/

theorem readDigits_itoa (number : Nat) :
    readDigits (itoa number) = some (itoa number, []) := by
  obtain ⟨first, rest, isText, digits, -⟩ := itoa_digits number
  have taken : (itoa number).takeWhile isDigit = itoa number := by
    rw [isText]
    exact List.takeWhile_eq_self_iff.mpr digits
  have dropped : (itoa number).dropWhile isDigit = [] := by
    rw [isText]
    exact List.dropWhile_eq_nil_iff.mpr digits
  rw [readDigits, taken, dropped, if_neg (by simp [isText])]

theorem readWhole_itoa (number : Nat) :
    readWhole (itoa number) = some (itoa number, []) := by
  obtain ⟨first, rest, isText, -, leading⟩ := itoa_digits number
  have read := readDigits_itoa number
  rw [isText] at read ⊢
  rw [readWhole]
  split
  case isFalse => exact read
  case isTrue zero =>
    have none : number = 0 := by
      by_contra positive
      exact leading (Nat.pos_of_ne_zero positive) zero
    rw [none] at isText
    obtain ⟨rfl, rfl⟩ := List.cons.inj (isText.symm.trans (by decide : itoa 0 = [0x30]))
    rfl

/-- An integer is a number, which is read as it is written. -/
theorem readNumber_toString (number : Int) :
    readNumber (ascii (toString number)) = some (ascii (toString number), []) := by
  cases number with
  | ofNat number =>
      have text : ascii (toString (Int.ofNat number)) = itoa number := rfl
      obtain ⟨first, rest, isText, digits, -⟩ := itoa_digits number
      have unsigned : takeOne [0x2D] (itoa number) = ([], itoa number) := by
        have isDigit := digits first List.mem_cons_self
        have notMinus : first ≠ 0x2D := by
          rintro rfl
          exact absurd isDigit (by decide)
        rw [isText]
        simp [takeOne, notMinus]
      rw [text, readNumber, unsigned]
      simp [readWhole_itoa, readFraction, readExponent]
  | negSucc number =>
      have text : ascii (toString (Int.negSucc number)) =
          0x2D :: itoa (number + 1) := by
        change ascii ("-" ++ toString (number + 1)) = 0x2D :: itoa (number + 1)
        rw [ascii, String.toList_append, List.map_append]
        rfl
      rw [text, readNumber]
      simp [takeOne, readWhole_itoa, readFraction, readExponent]

/-! ## Written values -/

/-- A text that is read as this value before whatever may follow one. -/
def IsWritten (text : Bytes) (value : Json) : Prop :=
  ∀ fuel depth rest, AtEnd rest →
    readValue (fuel + 1) depth (skipBlank (text ++ rest)) = some (value, rest)

/-- The literal of a text ends at its closing quote. -/
theorem readString_escape (text rest : Bytes) :
    readString (escape text ++ 0x22 :: rest) = some (escape text, rest) := by
  have isDecoded := characters_isDecoded text
  have reads : ∀ character ∈ characters text, ∀ rest,
      unquoteStep (escapeCharacter character ++ rest) =
        some (encodeRune character.1, (escapeCharacter character).length) :=
    fun character listed => unquoteStep_escapeCharacter (isDecoded character listed)
  refine Scanning.scanTo_flatMap reads ?_ rfl rest
  intro character listed
  have read := reads character listed []
  cases written : escapeCharacter character with
  | nil =>
      rw [written] at read
      cases read
  | cons first more =>
      refine ⟨first, more, rfl, ?_⟩
      rw [beq_eq_false_iff_ne]
      rintro rfl
      rw [written] at read
      cases read

theorem readValue_quote (fuel depth : Nat) (rest : Bytes) :
    readValue (fuel + 1) depth (0x22 :: rest) =
      (readString rest).map fun parts => (.string parts.1, parts.2) := by
  rw [readValue.eq_def]
  rfl

theorem readValue_object (fuel depth : Nat) (rest : Bytes) :
    readValue (fuel + 1) (depth + 1) (0x7B :: rest) =
      match expect 0x7D rest with
      | some rest => some (.object [], rest)
      | none =>
          (readMembers fuel depth rest).map fun parts =>
            (.object parts.1, parts.2) := by
  rw [readValue.eq_def]
  rfl

theorem readValue_word
    {first : UInt8}
    (notQuote : first ≠ 0x22)
    (notBrace : first ≠ 0x7B)
    (notBracket : first ≠ 0x5B)
    (fuel depth : Nat)
    (rest : Bytes) :
    readValue (fuel + 1) depth (first :: rest) = readWord (first :: rest) := by
  rw [readValue.eq_def]
  simp [notQuote, notBrace, notBracket]

theorem isWritten_quote (text : Bytes) :
    IsWritten (quote text) (.string (escape text)) := by
  intro fuel depth rest _
  have opened : quote text ++ rest = 0x22 :: (escape text ++ 0x22 :: rest) := by
    have mark : ascii "\"" = [0x22] := by decide
    simp [quote, mark]
  have visible : skipBlank (0x22 :: (escape text ++ 0x22 :: rest)) =
      0x22 :: (escape text ++ 0x22 :: rest) := rfl
  rw [opened, visible, readValue_quote, readString_escape]
  rfl

/-- A number starts with its sign or with a digit. -/
theorem head_of_readNumber
    {first : UInt8}
    {text : Bytes}
    (read : (readNumber (first :: text)).isSome = true) :
    first = 0x2D ∨ isDigit first = true := by
  by_contra other
  rw [not_or] at other
  have unsigned : takeOne [0x2D] (first :: text) = ([], first :: text) := by
    simp [takeOne, other.1]
  have notZero : first ≠ 0x30 := by
    rintro rfl
    exact other.2 (by decide)
  have none : readDigits (first :: text) = none := by
    simp [readDigits, other.2]
  simp [readNumber, unsigned, readWhole, notZero, none] at read

theorem isWritten_number
    {text : Bytes}
    (read : readNumber text = some (text, [])) :
    IsWritten text (.number text) := by
  intro fuel depth rest atEnd
  cases text with
  | nil => cases read
  | cons first text =>
      have notWord : first ≠ 0x22 ∧ first ≠ 0x7B ∧ first ≠ 0x5B ∧ first ≠ 0x6E ∧
          first ≠ 0x74 ∧ first ≠ 0x66 := by
        have start := head_of_readNumber (Option.isSome_of_eq_some read)
        refine ⟨?_, ?_, ?_, ?_, ?_, ?_⟩ <;>
          rintro rfl <;>
          exact absurd start (by decide)
      obtain ⟨notQuote, notBrace, notBracket, notNull, notTrue, notFalse⟩ := notWord
      have visible : skipBlank (first :: (text ++ rest)) =
          first :: (text ++ rest) := by
        have start := head_of_readNumber (Option.isSome_of_eq_some read)
        have notBlank : isBlank first = false := by
          rw [← Bool.not_eq_true]
          intro blank
          simp only [isBlank, Bool.or_eq_true, beq_iff_eq, or_assoc] at blank
          rcases blank with rfl | rfl | rfl | rfl <;>
            exact absurd start (by decide)
        simp [skipBlank, notBlank]
      have noWord : words.find? (fun word =>
          hasPrefix (first :: (text ++ rest)) word.1) = none := by
        have isNull : ascii "null" = [0x6E, 0x75, 0x6C, 0x6C] := by decide
        have isTrue : ascii "true" = [0x74, 0x72, 0x75, 0x65] := by decide
        have isFalse : ascii "false" = [0x66, 0x61, 0x6C, 0x73, 0x65] := by decide
        simp [words, hasPrefix, isNull, isTrue, isFalse, notNull.symm,
          notTrue.symm, notFalse.symm]
      rw [List.cons_append, visible, readValue_word notQuote notBrace notBracket,
        readWord, noWord, ← List.cons_append,
        readNumber_stops _ rest atEnd, read]
      rfl

end Go
end Haste
