import Haste.Foundation.Occurrence
import Haste.Go.Utf8

/-!
# Format strings

A format with no verb but `%s` is copied up to the verb, where the next value
stands as it is.
-/

namespace Haste
namespace Go

open Occurrence

/-- The bytes of a literal. -/
def utf8 (text : String) : Bytes :=
  text.toList.flatMap fun rune => encodeRune rune.toNat

/-- `fmt.Sprintf` with no verb but `%s`. -/
def sprintf : Bytes → List Bytes → Bytes
  | 0x25 :: 0x73 :: rest, value :: values => value ++ sprintf rest values
  | byte :: rest, values => byte :: sprintf rest values
  | [], _ => []

/-- `strings.Replace`, once. -/
def replaceOne (text old new : Bytes) : Bytes :=
  match indexOf old text with
  | some index => text.take index ++ new ++ text.drop (index + old.length)
  | none => text

example : utf8 "字元" = [0xE5, 0xAD, 0x97, 0xE5, 0x85, 0x83] := by decide

/-- What comes before a verb is copied. -/
theorem sprintf_append
    {before : Bytes}
    (noVerb : 0x25 ∉ before)
    (rest : Bytes)
    (values : List Bytes) :
    sprintf (before ++ rest) values = before ++ sprintf rest values := by
  induction before with
  | nil => rfl
  | cons first before inductionHypothesis =>
      obtain ⟨notFirst, notLater⟩ := not_or.mp (mt List.mem_cons.mpr noVerb)
      rw [List.cons_append, sprintf, inductionHypothesis notLater, List.cons_append]
      intro _ _ _ _ isVerb
      exact absurd isVerb.symm notFirst

theorem sprintf_verb (rest value : Bytes) (values : List Bytes) :
    sprintf (ascii "%s" ++ rest) (value :: values) = value ++ sprintf rest values := by
  have verb : ascii "%s" = [0x25, 0x73] := by decide
  rw [verb]
  rfl

theorem sprintf_nil {rest : Bytes} (noVerb : 0x25 ∉ rest) : sprintf rest [] = rest := by
  have copied := sprintf_append noVerb [] []
  simpa [sprintf] using copied

/-- A format with one verb. -/
theorem sprintf_one
    {format before after : Bytes}
    (isFormat : format = before ++ (ascii "%s" ++ after))
    (noVerbBefore : 0x25 ∉ before)
    (noVerbAfter : 0x25 ∉ after)
    (value : Bytes) :
    sprintf format [value] = before ++ value ++ after := by
  rw [isFormat, sprintf_append noVerbBefore, sprintf_verb, sprintf_nil noVerbAfter,
    List.append_assoc]

/-- A format with two verbs. -/
theorem sprintf_two
    {format before between after : Bytes}
    (isFormat : format = before ++ (ascii "%s" ++ (between ++ (ascii "%s" ++ after))))
    (noVerbBefore : 0x25 ∉ before)
    (noVerbBetween : 0x25 ∉ between)
    (noVerbAfter : 0x25 ∉ after)
    (first second : Bytes) :
    sprintf format [first, second] =
      before ++ first ++ between ++ second ++ after := by
  rw [isFormat, sprintf_append noVerbBefore, sprintf_verb,
    sprintf_append noVerbBetween, sprintf_verb, sprintf_nil noVerbAfter]
  simp only [List.append_assoc]

end Go
end Haste
