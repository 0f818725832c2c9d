import Haste.Go.Document

/-!
# How much of a document is read

Each reader leaves a later part of its text.  So the recursion over a document
is no deeper than the document is long, and a literal that was read is a part of
the text.
-/

namespace Haste
namespace Go

/-- A later part of a text, after at least one byte of it. -/
def Later (rest text : Bytes) : Prop := ∃ passed, passed ≠ [] ∧ passed ++ rest = text

namespace Later

variable {first second third : Bytes}

theorem length_lt (later : Later first second) : first.length < second.length := by
  obtain ⟨passed, some, rfl⟩ := later
  rw [List.length_append]
  exact Nat.lt_add_of_pos_left (List.length_pos_iff.mpr some)

theorem suffix (later : Later first second) : first <:+ second := by
  obtain ⟨passed, -, same⟩ := later
  exact ⟨passed, same⟩

theorem cons (byte : UInt8) (text : Bytes) : Later text (byte :: text) :=
  ⟨[byte], by simp, rfl⟩

theorem trans_suffix (later : Later first second) (suffix : second <:+ third) :
    Later first third := by
  obtain ⟨passed, some, rfl⟩ := later
  obtain ⟨before, rfl⟩ := suffix
  exact ⟨before ++ passed, by simp [some], List.append_assoc _ _ _⟩

theorem of_suffix (suffix : first <:+ second) (later : Later second third) :
    Later first third := by
  obtain ⟨passed, some, rfl⟩ := later
  obtain ⟨before, rfl⟩ := suffix
  exact ⟨passed ++ before, by simp [some], List.append_assoc _ _ _⟩

theorem trans (earlier : Later first second) (later : Later second third) :
    Later first third :=
  earlier.trans_suffix later.suffix

end Later

theorem skipBlank_suffix (text : Bytes) : skipBlank text <:+ text :=
  List.dropWhile_suffix _

theorem expect_later
    {mark : UInt8}
    {text rest : Bytes}
    (found : expect mark text = some rest) :
    Later rest text := by
  unfold expect at found
  cases visible : skipBlank text with
  | nil => simp [visible] at found
  | cons first more =>
      simp only [visible, Option.ite_none_right_eq_some, Option.some.injEq] at found
      obtain ⟨-, rfl⟩ := found
      exact (Later.cons first more).trans_suffix (visible ▸ skipBlank_suffix text)

/-- A literal is what was passed before its closing quote. -/
theorem readString_append
    {text : Bytes}
    {parts : Bytes × Bytes}
    (read : readString text = some parts) :
    parts.1 ++ 0x22 :: parts.2 = text := by
  obtain ⟨mark, isMark, same⟩ := Scanning.append_of_scanTo read
  rwa [beq_iff_eq.mp isMark] at same

theorem readString_later
    {text : Bytes}
    {parts : Bytes × Bytes}
    (read : readString text = some parts) :
    Later parts.2 text := by
  refine ⟨parts.1 ++ [0x22], by simp, ?_⟩
  rw [List.append_assoc]
  exact readString_append read

/-- The value of a member comes after its name and its colon. -/
theorem memberValue_later
    {text afterQuote afterColon : Bytes}
    {name : Bytes × Bytes}
    (quote : expect 0x22 text = some afterQuote)
    (readName : readString afterQuote = some name)
    (colon : expect 0x3A name.2 = some afterColon) :
    Later (skipBlank afterColon) text := by
  apply Later.of_suffix (skipBlank_suffix afterColon)
  apply (expect_later colon).trans
  exact (readString_later readName).trans (expect_later quote)

/-! ## Numbers -/

theorem takeOne_append_eq (choices text : Bytes) :
    (takeOne choices text).1 ++ (takeOne choices text).2 = text := by
  cases text with
  | nil => rfl
  | cons first rest =>
      rw [takeOne]
      split <;> rfl

section

variable {text : Bytes} {parts : Bytes × Bytes}

theorem readDigits_append
    (read : readDigits text = some parts) :
    parts.1 ≠ [] ∧ parts.1 ++ parts.2 = text := by
  simp only [readDigits, Option.ite_none_left_eq_some, Option.some.injEq] at read
  obtain ⟨some, rfl⟩ := read
  exact ⟨some, List.takeWhile_append_dropWhile⟩

theorem readWhole_append
    (read : readWhole text = some parts) :
    parts.1 ≠ [] ∧ parts.1 ++ parts.2 = text := by
  cases text with
  | nil => cases read
  | cons first rest =>
      rw [readWhole] at read
      split at read
      case isTrue zero =>
        cases read
        exact ⟨by simp, by rw [zero]; rfl⟩
      case isFalse => exact readDigits_append read

theorem readFraction_append
    (read : readFraction text = some parts) :
    parts.1 ++ parts.2 = text := by
  cases text with
  | nil =>
      cases read
      rfl
  | cons first rest =>
      rw [readFraction] at read
      split at read
      case isTrue point =>
        obtain ⟨digits, readDigits, rfl⟩ := Option.map_eq_some_iff.mp read
        rw [List.cons_append, (readDigits_append readDigits).2, point]
      case isFalse =>
        cases read
        rfl

theorem readExponent_append
    (read : readExponent text = some parts) :
    parts.1 ++ parts.2 = text := by
  cases text with
  | nil =>
      cases read
      rfl
  | cons first rest =>
      rw [readExponent] at read
      split at read
      case isTrue =>
        obtain ⟨digits, readDigits, rfl⟩ := Option.map_eq_some_iff.mp read
        rw [List.append_assoc, (readDigits_append readDigits).2, List.cons_append,
          takeOne_append_eq]
      case isFalse =>
        cases read
        rfl

theorem readNumber_append
    (read : readNumber text = some parts) :
    parts.1 ≠ [] ∧ parts.1 ++ parts.2 = text := by
  simp only [readNumber, Option.bind_eq_some_iff, Option.map_eq_some_iff] at read
  obtain ⟨whole, readWhole, fraction, readFraction, exponent, readExponent, rfl⟩ :=
    read
  obtain ⟨some, wholeText⟩ := readWhole_append readWhole
  have fractionText := readFraction_append readFraction
  have exponentText := readExponent_append readExponent
  refine ⟨by simp [some], ?_⟩
  rw [List.append_assoc, List.append_assoc, List.append_assoc, exponentText,
    fractionText, wholeText, takeOne_append_eq]

end

theorem readWord_later
    {text : Bytes}
    {parts : Json × Bytes}
    (read : readWord text = some parts) :
    Later parts.2 text := by
  unfold readWord at read
  cases found : words.find? fun word => hasPrefix text word.1 with
  | some word =>
      simp only [found, Option.some.injEq] at read
      subst read
      have starts := List.find?_some found
      have some : word.1 ≠ [] := by
        have listed := List.mem_of_find?_eq_some found
        simp only [words, List.mem_cons, List.not_mem_nil, or_false] at listed
        rcases listed with rfl | rfl | rfl <;> exact (by decide)
      obtain ⟨rest, rfl⟩ := List.isPrefixOf_iff_prefix.mp starts
      exact ⟨word.1, some, by rw [List.drop_left]⟩
  | none =>
      simp only [found, Option.map_eq_some_iff] at read
      obtain ⟨number, readNumber, rfl⟩ := read
      obtain ⟨some, same⟩ := readNumber_append readNumber
      exact ⟨number.1, some, same⟩

/-- A word or a number is no string and no object. -/
theorem readWord_plain
    {text : Bytes}
    {parts : Json × Bytes}
    (read : readWord text = some parts)
    (literal : Bytes)
    (members : List (Bytes × Json)) :
    parts.1 ≠ .string literal ∧ parts.1 ≠ .object members := by
  unfold readWord at read
  cases found : words.find? fun word => hasPrefix text word.1 with
  | some word =>
      have listed := List.mem_of_find?_eq_some found
      simp only [words, List.mem_cons, List.not_mem_nil, or_false] at listed
      simp only [found, Option.some.injEq] at read
      subst read
      rcases listed with rfl | rfl | rfl <;> simp
  | none =>
      simp only [found, Option.map_eq_some_iff] at read
      obtain ⟨number, -, rfl⟩ := read
      simp

/-! ## Values -/

section

variable {fuel depth : Nat} {text : Bytes}

/-- A value is a literal, an object, an array, or a word or number. -/
theorem readValue_cases
    {parts : Json × Bytes}
    (read : readValue (fuel + 1) depth text = some parts) :
    (∃ rest, Later rest text ∧
      ((∃ literal, readString rest = some (literal, parts.2) ∧
          parts.1 = .string literal) ∨
        (expect 0x7D rest = some parts.2 ∧ parts.1 = .object []) ∨
        (∃ deeper members, readMembers fuel deeper rest =
          some (members, parts.2) ∧ parts.1 = .object members) ∨
        (expect 0x5D rest = some parts.2 ∧ parts.1 = .array []) ∨
        ∃ deeper elements, readElements fuel deeper rest =
          some (elements, parts.2) ∧ parts.1 = .array elements)) ∨
    (readWord text = some parts ∧
      ∀ (literal : Bytes) (members : List (Bytes × Json)),
        parts.1 ≠ .string literal ∧ parts.1 ≠ .object members) := by
  cases text with
  | nil => cases read
  | cons first rest =>
      rw [readValue.eq_def] at read
      simp only at read
      split_ifs at read with quote brace bracket
      · obtain ⟨literal, readLiteral, rfl⟩ := Option.map_eq_some_iff.mp read
        exact Or.inl ⟨rest, .cons first rest, Or.inl ⟨_, readLiteral, rfl⟩⟩
      · cases depth with
        | zero => cases read
        | succ depth =>
            refine Or.inl ⟨rest, .cons first rest, Or.inr ?_⟩
            simp only at read
            cases empty : expect 0x7D rest with
            | some more =>
                rw [empty] at read
                cases read
                exact Or.inl ⟨rfl, rfl⟩
            | none =>
                simp only [empty] at read
                obtain ⟨members, readMembers, rfl⟩ :=
                  Option.map_eq_some_iff.mp read
                exact Or.inr (Or.inl ⟨_, _, readMembers, rfl⟩)
      · cases depth with
        | zero => cases read
        | succ depth =>
            refine Or.inl ⟨rest, .cons first rest, Or.inr (Or.inr (Or.inr ?_))⟩
            simp only at read
            cases empty : expect 0x5D rest with
            | some more =>
                rw [empty] at read
                cases read
                exact Or.inl ⟨rfl, rfl⟩
            | none =>
                simp only [empty] at read
                obtain ⟨elements, readElements, rfl⟩ :=
                  Option.map_eq_some_iff.mp read
                exact Or.inr ⟨_, _, readElements, rfl⟩
      · exact Or.inr ⟨read, readWord_plain read⟩

/-- After an item a comma brings more items, and anything else must be the end. -/
theorem listEnds_cases
    {Item : Type}
    {item : Item}
    {rest : Bytes}
    {ending : UInt8}
    {readMore : Bytes → Option (List Item × Bytes)}
    {parts : List Item × Bytes}
    (ends : (match expect 0x2C rest with
      | some more =>
          (readMore more).map fun others => (item :: others.1, others.2)
      | none => (expect ending rest).map fun last => ([item], last)) = some parts) :
    (∃ more others, expect 0x2C rest = some more ∧
        readMore more = some (others, parts.2) ∧ parts.1 = item :: others) ∨
      (expect ending rest = some parts.2 ∧ parts.1 = [item]) := by
  cases more : expect 0x2C rest with
  | some more =>
      simp only [more] at ends
      obtain ⟨others, readOthers, rfl⟩ := Option.map_eq_some_iff.mp ends
      exact Or.inl ⟨_, _, rfl, readOthers, rfl⟩
  | none =>
      simp only [more] at ends
      obtain ⟨last, ended, rfl⟩ := Option.map_eq_some_iff.mp ends
      exact Or.inr ⟨ended, rfl⟩

/-- A round over the members of an object passes a name, a colon and a value. -/
theorem readMembers_cases
    {parts : List (Bytes × Json) × Bytes}
    (read : readMembers (fuel + 1) depth text = some parts) :
    ∃ name value rest, Later rest text ∧
      readValue fuel depth rest = some value ∧
      ((∃ more others, expect 0x2C value.2 = some more ∧
          readMembers fuel depth more = some (others, parts.2) ∧
          parts.1 = (name, value.1) :: others) ∨
        (expect 0x7D value.2 = some parts.2 ∧ parts.1 = [(name, value.1)])) := by
  rw [readMembers.eq_def] at read
  simp only [Option.bind_eq_some_iff] at read
  obtain ⟨afterQuote, quote, name, readName, afterColon, colon, value, readValue,
    ends⟩ := read
  have later := memberValue_later quote readName colon
  refine ⟨name.1, value, skipBlank afterColon, later, readValue,
    listEnds_cases ends⟩

/-- A round over the elements of an array passes a value. -/
theorem readElements_cases
    {parts : List Json × Bytes}
    (read : readElements (fuel + 1) depth text = some parts) :
    ∃ value rest, rest <:+ text ∧
      readValue fuel depth rest = some value ∧
      ((∃ more others, expect 0x2C value.2 = some more ∧
          readElements fuel depth more = some (others, parts.2) ∧
          parts.1 = value.1 :: others) ∨
        (expect 0x5D value.2 = some parts.2 ∧ parts.1 = [value.1])) := by
  rw [readElements.eq_def] at read
  simp only [Option.bind_eq_some_iff] at read
  obtain ⟨value, readValue, ends⟩ := read
  refine ⟨value, skipBlank text, skipBlank_suffix text, readValue,
    listEnds_cases ends⟩

end

/-- Whatever is read, the rest of the text comes later. -/
theorem later_of_read (fuel : Nat) :
    (∀ depth text parts, readValue fuel depth text = some parts →
      Later parts.2 text) ∧
    (∀ depth text parts, readMembers fuel depth text = some parts →
      Later parts.2 text) ∧
    (∀ depth text parts, readElements fuel depth text = some parts →
      Later parts.2 text) := by
  induction fuel with
  | zero =>
      refine ⟨?_, ?_, ?_⟩ <;> rintro depth text parts ⟨⟩
  | succ fuel inductionHypothesis =>
      obtain ⟨ofValue, ofMembers, ofElements⟩ := inductionHypothesis
      refine ⟨?_, ?_, ?_⟩
      · intro depth text parts read
        rcases readValue_cases read with ⟨rest, later, inside⟩ | ⟨word, -⟩
        · refine Later.of_suffix ?_ later
          rcases inside with ⟨literal, readLiteral, -⟩ | ⟨empty, -⟩ |
            ⟨_, _, readMembers, -⟩ | ⟨empty, -⟩ | ⟨_, _, readElements, -⟩
          · exact (readString_later readLiteral).suffix
          · exact (expect_later empty).suffix
          · exact (ofMembers _ _ _ readMembers).suffix
          · exact (expect_later empty).suffix
          · exact (ofElements _ _ _ readElements).suffix
        · exact readWord_later word
      · intro depth text parts read
        obtain ⟨_, value, rest, later, readValue, ends⟩ := readMembers_cases read
        have valueLater := (ofValue _ _ _ readValue).trans later
        rcases ends with ⟨more, _, comma, readOthers, -⟩ | ⟨ended, -⟩
        · exact ((ofMembers _ _ _ readOthers).trans (expect_later comma)).trans
            valueLater
        · exact (expect_later ended).trans valueLater
      · intro depth text parts read
        obtain ⟨value, rest, suffix, readValue, ends⟩ := readElements_cases read
        have valueLater := (ofValue _ _ _ readValue).trans_suffix suffix
        rcases ends with ⟨more, _, comma, readOthers, -⟩ | ⟨ended, -⟩
        · exact ((ofElements _ _ _ readOthers).trans (expect_later comma)).trans
            valueLater
        · exact (expect_later ended).trans valueLater

theorem readValue_later
    {fuel depth : Nat}
    {text : Bytes}
    {parts : Json × Bytes}
    (read : readValue fuel depth text = some parts) :
    Later parts.2 text :=
  (later_of_read fuel).1 _ _ _ read

/-- The literal of a string is a part of the text. -/
theorem isInfix_literal
    {fuel depth : Nat}
    {text literal : Bytes}
    {parts : Json × Bytes}
    (read : readValue fuel depth text = some parts)
    (isString : parts.1 = .string literal) :
    literal <:+: text := by
  cases fuel with
  | zero => cases read
  | succ fuel =>
      rcases readValue_cases read with ⟨rest, later, inside⟩ | ⟨-, plain⟩
      · refine List.IsInfix.trans ?_ later.suffix.isInfix
        rcases inside with ⟨other, readLiteral, same⟩ | ⟨-, same⟩ |
          ⟨_, _, -, same⟩ | ⟨-, same⟩ | ⟨_, _, -, same⟩ <;>
          rw [isString] at same <;> cases same
        exact ⟨[], 0x22 :: parts.2, readString_append readLiteral⟩
      · exact absurd isString (plain literal []).1

/-- So is the literal of a string member. -/
theorem isInfix_member_literal
    {fuel depth : Nat}
    {text name literal : Bytes}
    {parts : List (Bytes × Json) × Bytes}
    (read : readMembers fuel depth text = some parts)
    (listed : (name, Json.string literal) ∈ parts.1) :
    literal <:+: text := by
  induction fuel generalizing text parts with
  | zero => cases read
  | succ fuel inductionHypothesis =>
      obtain ⟨first, value, rest, later, readFirst, ends⟩ := readMembers_cases read
      have ofFirst : (name, Json.string literal) = (first, value.1) →
          literal <:+: text := by
        intro same
        have isString : value.1 = .string literal := (Prod.mk.inj same).2.symm
        exact (isInfix_literal readFirst isString).trans later.suffix.isInfix
      rcases ends with ⟨more, others, comma, readOthers, same⟩ | ⟨-, same⟩
      · rw [same] at listed
        rcases List.mem_cons.mp listed with isFirst | isOther
        · exact ofFirst isFirst
        · have moreLater := ((expect_later comma).trans
            (readValue_later readFirst)).trans later
          exact (inductionHypothesis readOthers isOther).trans
            moreLater.suffix.isInfix
      · rw [same] at listed
        exact ofFirst (List.mem_singleton.mp listed)

theorem isInfix_document_literal
    {text name literal : Bytes}
    {members : List (Bytes × Json)}
    (read : readDocument text = some (.object members))
    (listed : (name, Json.string literal) ∈ members) :
    literal <:+: text := by
  unfold readDocument at read
  cases value : readValue (2 * text.length) maxNestingDepth (skipBlank text) with
  | none => simp [value] at read
  | some parts =>
      simp only [value, Option.ite_none_right_eq_some, Option.some.injEq] at read
      refine List.IsInfix.trans ?_ (skipBlank_suffix text).isInfix
      revert value
      cases 2 * text.length with
      | zero => exact fun value => by cases value
      | succ fuel =>
          intro value
          rcases readValue_cases value with ⟨rest, later, inside⟩ | ⟨-, plain⟩
          · refine List.IsInfix.trans ?_ later.suffix.isInfix
            rcases inside with ⟨_, -, same⟩ | ⟨-, same⟩ |
              ⟨_, _, readMembers, same⟩ | ⟨-, same⟩ | ⟨_, _, -, same⟩ <;>
              rw [read.2] at same <;> cases same
            · cases listed
            · exact isInfix_member_literal readMembers listed
          · exact absurd read.2 (plain [] members).2

/-! ## The bound on the recursion -/

/-- More than two rounds for each byte of the text make no difference. -/
theorem read_succ_eq (fuel : Nat) :
    (∀ depth text, 2 * text.length ≤ fuel →
      readValue (fuel + 1) depth text = readValue fuel depth text) ∧
    (∀ depth text, 2 * text.length + 1 ≤ fuel →
      readMembers (fuel + 1) depth text = readMembers fuel depth text) ∧
    (∀ depth text, 2 * text.length + 1 ≤ fuel →
      readElements (fuel + 1) depth text = readElements fuel depth text) := by
  induction fuel with
  | zero =>
      refine ⟨?_, ?_, ?_⟩ <;> intro depth text short
      · obtain rfl : text = [] := List.length_eq_zero_iff.mp (by omega)
        rfl
      · omega
      · omega
  | succ fuel inductionHypothesis =>
      obtain ⟨ofValue, ofMembers, ofElements⟩ := inductionHypothesis
      refine ⟨?_, ?_, ?_⟩
      · intro depth text short
        cases text with
        | nil => rfl
        | cons first rest =>
            have restShort : 2 * rest.length + 1 ≤ fuel := by
              rw [List.length_cons] at short
              omega
            rw [readValue.eq_def (fuel + 1 + 1), readValue.eq_def (fuel + 1)]
            simp only
            cases depth with
            | zero => rfl
            | succ depth =>
                simp only [ofMembers depth rest restShort,
                  ofElements depth rest restShort]
      · intro depth text short
        rw [readMembers.eq_def (fuel + 1 + 1), readMembers.eq_def (fuel + 1)]
        simp only
        refine Option.bind_congr fun afterQuote quote => ?_
        refine Option.bind_congr fun name readName => ?_
        refine Option.bind_congr fun afterColon colon => ?_
        have shorter := (memberValue_later quote readName colon).length_lt
        rw [ofValue depth _ (by omega)]
        refine Option.bind_congr fun value readFirst => ?_
        cases comma : expect 0x2C value.2 with
        | none => rfl
        | some more =>
            have moreShorter :=
              ((expect_later comma).trans (readValue_later readFirst)).length_lt
            simp only [ofMembers depth more (by omega)]
      · intro depth text short
        rw [readElements.eq_def (fuel + 1 + 1), readElements.eq_def (fuel + 1)]
        simp only
        have shorter := (skipBlank_suffix text).length_le
        rw [ofValue depth _ (by omega)]
        refine Option.bind_congr fun value readFirst => ?_
        cases comma : expect 0x2C value.2 with
        | none => rfl
        | some more =>
            have moreShorter :=
              ((expect_later comma).trans (readValue_later readFirst)).length_lt
            simp only [ofElements depth more (by omega)]

/-- So a document is refused for what it holds and not for its length. -/
theorem readValue_eq_of_le
    {text : Bytes}
    {fuel : Nat}
    (enough : 2 * text.length ≤ fuel)
    (depth : Nat) :
    readValue fuel depth text = readValue (2 * text.length) depth text := by
  induction fuel, enough using Nat.le_induction with
  | base => rfl
  | succ fuel enough inductionHypothesis =>
      rw [(read_succ_eq fuel).1 depth text enough, inductionHypothesis]

end Go
end Haste
