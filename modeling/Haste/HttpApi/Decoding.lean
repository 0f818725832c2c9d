import Haste.Go.Document
import Haste.HttpApi.Read

/-!
# What a client decodes

An object that was written field by field is read as the members with these
names and values, and a string member decodes to the characters of its text.
-/

namespace Haste
namespace HttpApi

open Go

/-- The last value under a name. -/
def member (name : Bytes) (members : List (Bytes × Json)) : Option Json :=
  (members.reverse.find? fun member => unescape member.1 == some name).map
    Prod.snd

/-- The text of a string member of a document. -/
def stringMember (name document : Bytes) : Option Bytes :=
  match readDocument document with
  | some (.object members) =>
      match member name members with
      | some (.string literal) => unescape literal
      | _ => none
  | _ => none

/-- A field of an object, with the value that its text is read as. -/
structure Member where
  name : String
  text : Bytes
  value : Json
  written : IsWritten text value
  valid : validString (ascii name) = true

namespace Member

/-- The field as it is written. -/
def field (member : Member) : Bytes := HttpApi.field member.name member.text

/-- The member as it is read. -/
def parsed (member : Member) : Bytes × Json :=
  (escape (ascii member.name), member.value)

/-- A string field. -/
def string
    (name : String)
    (text : Bytes)
    (valid : validString (ascii name) = true) : Member where
  name := name
  text := quote text
  value := .string (escape text)
  written := isWritten_quote text
  valid := valid

theorem unescape_parsed (member : Member) :
    unescape member.parsed.1 = some (ascii member.name) := by
  rw [parsed, unescape_escape, (reencode_eq_iff _).mpr member.valid]

/-- A field with what follows it: its name in quotes, a colon and its value. -/
theorem field_append (member : Member) (rest : Bytes) :
    member.field ++ rest = 0x22 :: (escape (ascii member.name) ++
      0x22 :: 0x3A :: (member.text ++ rest)) := by
  have mark : ascii "\"" = [0x22] := by decide
  have colon : ascii ":" = [0x3A] := by decide
  simp [field, HttpApi.field, quote, mark, colon]

/-- One round over the members of an object. -/
theorem readMembers_field
    (member : Member)
    (fuel depth : Nat)
    {rest : Bytes}
    (atEnd : AtEnd rest) :
    readMembers (fuel + 2) depth (member.field ++ rest) =
      match expect 0x2C rest with
      | some text =>
          (readMembers (fuel + 1) depth text).map fun parts =>
            (member.parsed :: parts.1, parts.2)
      | none =>
          (expect 0x7D rest).map fun text => ([member.parsed], text) := by
  have opened : expect 0x22 (0x22 :: (escape (ascii member.name) ++
      0x22 :: 0x3A :: (member.text ++ rest))) =
        some (escape (ascii member.name) ++
          0x22 :: 0x3A :: (member.text ++ rest)) := rfl
  have colon : expect 0x3A (0x3A :: (member.text ++ rest)) =
      some (member.text ++ rest) := rfl
  have value : readValue (fuel + 1) depth (skipBlank (member.text ++ rest)) =
      some (member.value, rest) := member.written fuel depth rest atEnd
  rw [field_append, readMembers.eq_def]
  simp only [opened, Option.bind_some, readString_escape, colon, value]
  rfl

/-- The fields of an object up to its end are read as its members. -/
theorem readMembers_fields
    (first : Member)
    (others : List Member)
    {fuel : Nat}
    (enough : others.length ≤ fuel)
    (depth : Nat)
    (rest : Bytes) :
    readMembers (fuel + 2) depth
        ((ascii ",").intercalate ((first :: others).map field) ++ 0x7D :: rest) =
      some ((first :: others).map parsed, rest) := by
  have comma : ascii "," = [0x2C] := by decide
  rw [comma]
  induction others generalizing first fuel with
  | nil =>
      have atEnd : AtEnd (0x7D :: rest) := by
        rintro _ ⟨⟩
        decide
      rw [List.map_singleton, List.intercalate_singleton,
        readMembers_field first fuel depth atEnd]
      rfl
  | cons second others inductionHypothesis =>
      cases fuel with
      | zero => simp at enough
      | succ fuel =>
          have atEnd : AtEnd (0x2C :: ([0x2C].intercalate
              ((second :: others).map field) ++ 0x7D :: rest)) := by
            rintro _ ⟨⟩
            decide
          have more : expect 0x2C (0x2C :: ([0x2C].intercalate
              ((second :: others).map field) ++ 0x7D :: rest)) =
                some ([0x2C].intercalate ((second :: others).map field) ++
                  0x7D :: rest) := rfl
          have later := inductionHypothesis second
            (Nat.le_of_succ_le_succ enough)
          rw [List.map_cons, List.map_cons, List.intercalate_cons_cons,
            ← List.map_cons, List.append_assoc, List.append_assoc,
            List.singleton_append, readMembers_field first (fuel + 1) depth atEnd,
            more]
          simp only [later]
          rfl

theorem length_le_fields (members : List Member) :
    members.length ≤ ([0x2C].intercalate (members.map field)).length + 1 := by
  induction members with
  | nil => exact Nat.zero_le _
  | cons first others inductionHypothesis =>
      cases others with
      | nil => simp
      | cons second others =>
          rw [List.map_cons, List.map_cons, List.intercalate_cons_cons,
            ← List.map_cons, List.length_append, List.length_append,
            List.length_cons, List.length_singleton]
          omega

/-- An object that was written is read as its members. -/
theorem readDocument_object (first : Member) (others : List Member) :
    readDocument (object ((first :: others).map field)) =
      some (.object ((first :: others).map parsed)) := by
  have brace : ascii "\x7b" = [0x7B] := by decide
  have ending : ascii "\x7d\n" = [0x7D, 0x0A] := by decide
  have comma : ascii "," = [0x2C] := by decide
  have narrow := length_le_fields (first :: others)
  rw [List.length_cons] at narrow
  have members := readMembers_fields first others
    (by omega : others.length ≤
      2 * ([0x2C].intercalate ((first :: others).map field)).length + 3)
    9999 [0x0A]
  rw [comma] at members
  have visible : ∃ rest, [0x2C].intercalate ((first :: others).map field) ++
      [0x7D, 0x0A] = 0x22 :: rest := by
    cases others with
    | nil => exact ⟨_, by rw [List.map_singleton, List.intercalate_singleton,
        field_append]⟩
    | cons second others => exact ⟨_, by rw [List.map_cons, List.map_cons,
        List.intercalate_cons_cons, List.append_assoc, List.append_assoc,
        field_append]⟩
  have notEmpty : expect 0x7D ([0x2C].intercalate ((first :: others).map field) ++
      [0x7D, 0x0A]) = none := by
    obtain ⟨rest, starts⟩ := visible
    rw [starts]
    rfl
  have opened : readValue
      (2 * ([0x7B] ++ [0x2C].intercalate ((first :: others).map field) ++
        [0x7D, 0x0A]).length) maxNestingDepth
      (0x7B :: ([0x2C].intercalate ((first :: others).map field) ++
        [0x7D, 0x0A])) =
        some (.object ((first :: others).map parsed), [0x0A]) := by
    have length : 2 * ([0x7B] ++ [0x2C].intercalate
        ((first :: others).map field) ++ [0x7D, 0x0A]).length =
          2 * ([0x2C].intercalate ((first :: others).map field)).length + 3 + 2 +
            1 := by
      simp only [List.length_append, List.length_cons, List.length_nil]
      omega
    have depth : maxNestingDepth = 9999 + 1 := rfl
    rw [length, depth, readValue_object, notEmpty]
    simp only [members]
    rfl
  rw [object, brace, ending, comma, readDocument]
  have start : skipBlank ([0x7B] ++ [0x2C].intercalate
      ((first :: others).map field) ++ [0x7D, 0x0A]) =
        0x7B :: ([0x2C].intercalate ((first :: others).map field) ++
          [0x7D, 0x0A]) := rfl
  rw [start, opened]
  rfl

/-- A value found under a name that no other value has. -/
theorem member_eq
    {name : Bytes}
    {value : Json}
    {members : List Member}
    (present : ∃ member ∈ members, ascii member.name = name)
    (unique : ∀ member ∈ members, ascii member.name = name →
      member.value = value) :
    HttpApi.member name (members.map parsed) = some value := by
  unfold HttpApi.member
  rw [← List.map_reverse, List.find?_map, Option.map_map]
  have found : (members.reverse.find? ((fun member =>
      unescape member.1 == some name) ∘ parsed)).isSome = true := by
    obtain ⟨member, listed, named⟩ := present
    rw [List.find?_isSome]
    exact ⟨member, List.mem_reverse.mpr listed, by
      simp [unescape_parsed, named]⟩
  obtain ⟨member, isFound⟩ := Option.isSome_iff_exists.mp found
  have named := List.find?_some isFound
  have listed := List.mem_reverse.mp (List.mem_of_find?_eq_some isFound)
  simp only [Function.comp_apply, unescape_parsed, beq_iff_eq, Option.some.injEq]
    at named
  rw [isFound, Option.map_some, Function.comp_apply, parsed,
    unique member listed named]

/-- A string member is decoded to the characters of its text. -/
theorem stringMember_object
    {first : Member}
    {others : List Member}
    {name text : Bytes}
    (present : ∃ member ∈ first :: others, ascii member.name = name)
    (unique : ∀ member ∈ first :: others, ascii member.name = name →
      member.value = .string (escape text)) :
    stringMember name (object ((first :: others).map field)) =
      some (reencode text) := by
  rw [stringMember, readDocument_object]
  simp only [member_eq present unique, unescape_escape]

end Member

end HttpApi
end Haste
