import Haste.Go.Digits
import Haste.Go.Numbers
import Haste.Go.Unquote

/-!
# HTML text

`html.EscapeString` writes five characters as references, so nothing that it has
written opens a tag or closes an attribute.  `html.UnescapeString` reads
references of all kinds, and gives the text back that was escaped.  The outline of
HTML, which is its tags, does not depend on escaped text.
-/

namespace Haste
namespace Go

/-- A byte of escaped text. -/
def escapeByte (byte : UInt8) : Bytes :=
  if byte = 0x26 then ascii "&amp;"
  else if byte = 0x27 then ascii "&#39;"
  else if byte = 0x3C then ascii "&lt;"
  else if byte = 0x3E then ascii "&gt;"
  else if byte = 0x22 then ascii "&#34;"
  else [byte]

/-- `html.EscapeString`. -/
def escapeString (text : Bytes) : Bytes := text.flatMap escapeByte

/-- `entity` and `entity2`: the characters of the names of references, of which
three matter here. -/
structure Entities where
  entity : Bytes → Option Nat
  entity2 : Bytes → Option (Nat × Nat)
  amp : entity (ascii "amp;") = some 0x26
  lt : entity (ascii "lt;") = some 0x3C
  gt : entity (ascii "gt;") = some 0x3E

/-- A table of these three names. -/
instance : Inhabited Entities where
  default := {
    entity := fun name =>
      if name = ascii "amp;" then some 0x26
      else if name = ascii "lt;" then some 0x3C
      else if name = ascii "gt;" then some 0x3E
      else none
    entity2 := fun _ => none
    amp := by decide
    lt := by decide
    gt := by decide }

/-- `replacementTable`: what numbers of control characters stand for. -/
def replacementTable : List Nat :=
  [0x20AC, 0x0081, 0x201A, 0x0192, 0x201E, 0x2026, 0x2020, 0x2021,
    0x02C6, 0x2030, 0x0160, 0x2039, 0x0152, 0x008D, 0x017D, 0x008F,
    0x0090, 0x2018, 0x2019, 0x201C, 0x201D, 0x2022, 0x2013, 0x2014,
    0x02DC, 0x2122, 0x0161, 0x203A, 0x0153, 0x009D, 0x017E, 0x0178]

/-- The character of a number. -/
def numericRune (number : Nat) : Nat :=
  if 0x80 ≤ number ∧ number ≤ 0x9F then
    replacementTable.getD (number - 0x80) runeError
  else if number = 0 ∨ isSurrogate number = true ∨ 0x10FFFF < number then runeError
  else number

/-- One for the semicolon that ends a reference, if it is there. -/
def semicolon (text : Bytes) : Nat := if text.head? = some 0x3B then 1 else 0

/-- The part of `unescapeEntity` for numbers: what is written for the reference
before this text, and how much the reference takes.  The number is 32 bits wide,
and a negative one is no character. -/
def unescapeNumber (text : Bytes) : Option (Bytes × Nat) :=
  if text.length ≤ 1 then none
  else
    let hex := text.head? = some 0x78 ∨ text.head? = some 0x58
    let body := if hex then text.tail else text
    let digits := body.takeWhile fun byte =>
      if hex then (hexValue byte).isSome else isDigit byte
    let width := (if hex then 3 else 2) + digits.length +
      semicolon (body.drop digits.length)
    if width ≤ 3 then none
    else
      let number := positional (if hex then 16 else 10)
        (digits.filterMap hexValue) % 2 ^ 32
      some (encodeRune (numericRune number), width)

/-- A letter or a digit. -/
def isAlphanumeric (byte : UInt8) : Bool :=
  between 0x61 0x7A byte || between 0x41 0x5A byte || isDigit byte

/-- `longestEntityWithoutSemicolon`. -/
def longestEntityWithoutSemicolon : Nat := 6

/-- The part of `unescapeEntity` for names. -/
def unescapeName (entities : Entities) (text : Bytes) : Bytes × Nat :=
  let letters := text.takeWhile isAlphanumeric
  let name := text.take (letters.length + semicolon (text.drop letters.length))
  if name = [] then ([0x26], 1)
  else match entities.entity name, entities.entity2 name with
    | some rune, _ => (encodeRune rune, name.length + 1)
    | none, some (first, second) =>
        (encodeRune first ++ encodeRune second, name.length + 1)
    | none, none =>
        let shorter := (List.range (longestEntityWithoutSemicolon + 1)).reverse.filter
          fun length => 1 < length ∧ length < name.length
        (shorter.findSome? fun length =>
          (entities.entity (name.take length)).map fun rune =>
            (encodeRune rune, length + 1)).getD (0x26 :: name, name.length + 1)

/-- One round of the loop of `html.UnescapeString`. -/
def unescapeStep (entities : Entities) : Bytes → Option (Bytes × Nat)
  | [] => none
  | first :: rest =>
      if first ≠ 0x26 then some ([first], 1)
      else
        match rest with
        | [] => some ([0x26], 1)
        | second :: more =>
            if second = 0x23 then some ((unescapeNumber more).getD ([0x26], 1))
            else some (unescapeName entities (second :: more))

/-- `html.UnescapeString`. -/
def unescapeString (entities : Entities) (text : Bytes) : Bytes :=
  ((Scanning.scan (unescapeStep entities) text).getD []).flatten

/-! ## Escaped text -/

/-- The characters that start and end tags and attributes. -/
def isMarkup (byte : UInt8) : Bool :=
  byte == 0x3C || byte == 0x3E || byte == 0x22 || byte == 0x27

theorem escapeByte_plain (byte : UInt8) :
    (escapeByte byte).all (fun written => !isMarkup written) = true := by
  unfold escapeByte
  split_ifs with amp apostrophe less greater quotes
  · decide
  · decide
  · decide
  · decide
  · decide
  · simp [isMarkup, apostrophe, less, greater, quotes]

/-- No character of markup is left in escaped text. -/
theorem escapeString_plain (text : Bytes) :
    ∀ byte ∈ escapeString text, isMarkup byte = false := by
  intro byte written
  obtain ⟨source, -, inPiece⟩ := List.mem_flatMap.mp written
  have plain := List.all_eq_true.mp (escapeByte_plain source) byte inPiece
  simpa using plain

theorem escapeByte_ne_nil (byte : UInt8) : escapeByte byte ≠ [] := by
  unfold escapeByte
  split_ifs <;> first | exact (by decide) | exact List.cons_ne_nil _ _

/-- A name that is known and ends with a semicolon. -/
theorem unescapeName_of_entity
    {entities : Entities}
    {letters : Bytes}
    {rune : Nat}
    (isName : letters.all isAlphanumeric = true)
    (known : entities.entity (letters ++ [0x3B]) = some rune)
    (rest : Bytes) :
    unescapeName entities (letters ++ 0x3B :: rest) =
      (encodeRune rune, letters.length + 2) := by
  have taken : (letters ++ 0x3B :: rest).takeWhile isAlphanumeric = letters := by
    have stop : isAlphanumeric 0x3B = false := by decide
    rw [List.takeWhile_append_of_pos (List.all_eq_true.mp isName),
      List.takeWhile_cons_of_neg (by simp [stop]), List.append_nil]
  have ended : semicolon ((letters ++ 0x3B :: rest).drop letters.length) = 1 := by
    rw [List.drop_left]
    rfl
  have name : (letters ++ 0x3B :: rest).take (letters.length + 1) =
      letters ++ [0x3B] := by
    rw [List.take_length_add_append, List.take_succ_cons, List.take_zero]
  have some : letters ++ [0x3B] ≠ [] := by simp
  simp only [unescapeName, taken, ended, name, if_neg some, known,
    List.length_append, List.length_singleton]

/-- A number of two digits and a semicolon. -/
theorem unescapeNumber_two
    {first second : UInt8}
    (firstDigit : isDigit first = true)
    (secondDigit : isDigit second = true)
    (rest : Bytes) :
    unescapeNumber (first :: second :: 0x3B :: rest) =
      some (encodeRune (numericRune
        (positional 10 ([first, second].filterMap hexValue) % 2 ^ 32)), 5) := by
  have decimal : ¬(first = 0x78 ∨ first = 0x58) := by
    rintro (rfl | rfl)
    · exact absurd firstDigit (by decide)
    · exact absurd firstDigit (by decide)
  have stop : isDigit 0x3B = false := by decide
  simp [unescapeNumber, decimal, firstDigit, secondDigit, stop, semicolon]

/-- The reference of a character is read back. -/
theorem unescapeStep_escapeByte
    (entities : Entities)
    (byte : UInt8)
    (rest : Bytes) :
    unescapeStep entities (escapeByte byte ++ rest) =
      some ([byte], (escapeByte byte).length) := by
  have named : ∀ (first : UInt8) (letters : Bytes) (rune : Nat), first ≠ 0x23 →
      (first :: letters).all isAlphanumeric = true →
      entities.entity (first :: letters ++ [0x3B]) = some rune →
      unescapeStep entities (0x26 :: (first :: letters ++ 0x3B :: rest)) =
        some (encodeRune rune, (first :: letters).length + 2) := by
    intro first letters rune notNumber isName known
    rw [List.cons_append, unescapeStep, if_neg (by simp)]
    simp only [if_neg notNumber]
    rw [← List.cons_append, unescapeName_of_entity isName known]
  have numbered : ∀ first second : UInt8, isDigit first = true →
      isDigit second = true →
      unescapeStep entities (0x26 :: 0x23 :: first :: second :: 0x3B :: rest) =
        some (encodeRune (numericRune
          (positional 10 ([first, second].filterMap hexValue) % 2 ^ 32)), 5) := by
    intro first second firstDigit secondDigit
    rw [unescapeStep, if_neg (by simp)]
    simp only [if_pos, unescapeNumber_two firstDigit secondDigit, Option.getD_some]
  unfold escapeByte
  split_ifs with amp apostrophe less greater quotes
  · rw [amp]
    exact named 0x61 [0x6D, 0x70] 0x26 (by decide) (by decide) entities.amp
  · rw [apostrophe]
    exact numbered 0x33 0x39 (by decide) (by decide)
  · rw [less]
    exact named 0x6C [0x74] 0x3C (by decide) (by decide) entities.lt
  · rw [greater]
    exact named 0x67 [0x74] 0x3E (by decide) (by decide) entities.gt
  · rw [quotes]
    exact numbered 0x33 0x34 (by decide) (by decide)
  · simp [unescapeStep, amp]

/-- Escaped text is read back as it was. -/
theorem unescapeString_escapeString (entities : Entities) (text : Bytes) :
    unescapeString entities (escapeString text) = text := by
  have reads : ∀ byte rest, byte :: rest <:+ text →
      unescapeStep entities (escapeByte byte ++ rest.flatMap escapeByte) =
        some ([byte], (escapeByte byte).length) :=
    fun byte rest _ => unescapeStep_escapeByte entities byte _
  rw [unescapeString, escapeString,
    Scanning.scan_flatMap (fun byte _ => escapeByte_ne_nil byte) reads,
    Option.getD_some, ← List.flatMap_def]
  exact List.flatMap_singleton' text

example : unescapeString default (ascii "&lt;b&gt; &#39;&amp;amp;") =
    ascii "<b> '&amp;" := by
  decide +kernel

/-! ## Tags and attributes -/

/-- Where in HTML a byte stands. -/
inductive Place
  | text
  | tag
  | single
  | double
  deriving DecidableEq

/-- Where the byte after this one stands. -/
def Place.next : Place → UInt8 → Place
  | text, byte => if byte = 0x3C then tag else text
  | tag, byte =>
      if byte = 0x3E then text
      else if byte = 0x27 then single
      else if byte = 0x22 then double
      else tag
  | single, byte => if byte = 0x27 then tag else single
  | double, byte => if byte = 0x22 then tag else double

/-- The tags with their attributes: what is left of HTML without its text and
without the values in quotes. -/
def outline : Place → Bytes → Bytes
  | _, [] => []
  | place, byte :: rest =>
      if place = .tag ∨ place.next byte = .tag then
        byte :: outline (place.next byte) rest
      else outline (place.next byte) rest

theorem outline_append (place : Place) (html rest : Bytes) :
    outline place (html ++ rest) =
      outline place html ++ outline (html.foldl Place.next place) rest := by
  induction html generalizing place with
  | nil => rfl
  | cons byte html inductionHypothesis =>
      rw [List.cons_append, outline, outline, List.foldl_cons, inductionHypothesis]
      split_ifs with shown
      · rw [List.cons_append]
      · rfl

/-- Only markup leads out of text and out of a value. -/
theorem Place.next_of_plain
    {place : Place}
    (notTag : place ≠ tag)
    {byte : UInt8}
    (plain : isMarkup byte = false) :
    place.next byte = place := by
  simp only [isMarkup, Bool.or_eq_false_iff, beq_eq_false_iff_ne] at plain
  obtain ⟨⟨⟨less, -⟩, quotes⟩, apostrophe⟩ := plain
  cases place with
  | text => exact if_neg less
  | tag => exact absurd rfl notTag
  | single => exact if_neg apostrophe
  | double => exact if_neg quotes

/-- Escaped text is in no tag. -/
theorem outline_of_plain
    {place : Place}
    (notTag : place ≠ .tag)
    {text : Bytes}
    (plain : ∀ byte ∈ text, isMarkup byte = false) :
    text.foldl Place.next place = place ∧ outline place text = [] := by
  induction text with
  | nil => exact ⟨rfl, rfl⟩
  | cons byte text inductionHypothesis =>
      obtain ⟨first, later⟩ := List.forall_mem_cons.mp plain
      have stays := Place.next_of_plain notTag first
      rw [List.foldl_cons, outline, stays]
      simpa [notTag] using inductionHypothesis later

/-- Two parts of a text with the same tags. -/
structure Alike (html other : Bytes) : Prop where
  ends : html.foldl Place.next .text = .text
  otherEnds : other.foldl Place.next .text = .text
  outline_eq : outline .text html = outline .text other

namespace Alike

theorem append
    {html other rest otherRest : Bytes}
    (first : Alike html other)
    (second : Alike rest otherRest) :
    Alike (html ++ rest) (other ++ otherRest) where
  ends := by rw [List.foldl_append, first.ends, second.ends]
  otherEnds := by rw [List.foldl_append, first.otherEnds, second.otherEnds]
  outline_eq := by
    rw [outline_append, outline_append, first.ends, first.otherEnds,
      first.outline_eq, second.outline_eq]

theorem of_ends {html : Bytes} (ends : html.foldl Place.next .text = .text) :
    Alike html html :=
  ⟨ends, ends, rfl⟩

theorem of_plain {text : Bytes} (plain : ∀ byte ∈ text, isMarkup byte = false) :
    Alike text [] := by
  obtain ⟨ends, nothing⟩ := outline_of_plain (by decide : Place.text ≠ .tag) plain
  exact ⟨ends, rfl, nothing⟩

/-- The text of a value. -/
theorem value
    {opening closing text : Bytes}
    (opens : opening.foldl Place.next .text = .double)
    (closes : closing.foldl Place.next .double = .text)
    (plain : ∀ byte ∈ text, isMarkup byte = false) :
    Alike (opening ++ text ++ closing) (opening ++ [] ++ closing) := by
  obtain ⟨stays, nothing⟩ := outline_of_plain (by decide : Place.double ≠ .tag) plain
  constructor
  · rw [List.foldl_append, List.foldl_append, opens, stays, closes]
  · rw [List.append_nil, List.foldl_append, opens, closes]
  · rw [outline_append, outline_append, List.foldl_append, opens, stays, nothing,
      List.append_nil, List.append_nil, outline_append, opens]

end Alike

end Go
end Haste
