import Haste.HttpApi.Create
import Haste.Web.Transport

/-!
# The limits of the editor

The editor and the save dialog count code points before they let a paste be
saved, and `Create` counts characters of what arrives.  With the same limits
neither side refuses what the other accepts.
-/

namespace Haste
namespace Web

open Go

/-- `overLimit` of `EditorPage`. -/
def overLimit (maxChars : Int) (content : JsString) : Bool :=
  decide (maxChars < countCodePoints content)

/-- `tooLong` of `SaveDialog`. -/
def tooLong (maxTitleChars : Int) (title : JsString) : Bool :=
  decide (maxTitleChars < countCodePoints (trim title))

/-- What the server decodes from the strings of the request that `save` makes. -/
def save
    (content language title : JsString)
    (expiresIn : Int64) : Option HttpApi.CreateRequest := do
  let content ← received content
  let language ← received language
  let title ← received (trim title)
  return { content, language, title, expiresIn }

/-- A title is refused for its length or for a control character. -/
theorem cleanTitle_cases
    {title : Bytes}
    {error : Store.Error}
    (refused : Store.cleanTitle title = .error error) :
    (error = .titleTooLong (runeCount (trimSpace title)) ∧
        Store.maxTitleChars < runeCount (trimSpace title)) ∨
      error = .titleControl := by
  unfold Store.cleanTitle at refused
  simp only at refused
  split at refused
  · cases refused
  · split at refused
    case isTrue long =>
      cases refused
      exact Or.inl ⟨rfl, long⟩
    case isFalse =>
      split at refused
      · cases refused
        exact Or.inr rfl
      · cases refused

/-- `Create` refuses content as too large if it has more characters than the
limit. -/
theorem checkRequest_tooLarge_iff
    {options : Store.Options}
    (validated : 1 ≤ options.maxChars)
    (request : Store.Request) :
    (∃ chars limit,
        Store.checkRequest options request = .error (.tooLarge chars limit)) ↔
      options.maxChars < runeCount request.content := by
  unfold Store.checkRequest
  simp only
  split
  case isTrue empty =>
    rw [empty]
    refine iff_of_false ?_ (by omega)
    rintro ⟨chars, limit, refused⟩
    cases refused
  case isFalse =>
    split
    case isTrue long => exact iff_of_true ⟨_, _, rfl⟩ long
    case isFalse short =>
      refine iff_of_false ?_ short
      rintro ⟨chars, limit, refused⟩
      cases cleaned : Store.cleanTitle request.title with
      | error error =>
          rw [cleaned] at refused
          rcases cleanTitle_cases cleaned with ⟨rfl, -⟩ | rfl
          · cases refused
          · cases refused
      | ok title =>
          rw [cleaned] at refused
          simp only at refused
          split at refused
          · cases refused
          · cases refused

/-- A title of few enough characters is not refused for its length, even if the
server trims more of it. -/
theorem cleanTitle_of_received
    {s : JsString}
    {title : Bytes}
    (arrives : received s = some title)
    (short : countCodePoints s ≤ Store.maxTitleChars)
    (chars : Nat) :
    Store.cleanTitle title ≠ .error (.titleTooLong chars) := by
  intro refused
  rcases cleanTitle_cases refused with ⟨-, long⟩ | control
  · rw [received_eq, Option.some.injEq] at arrives
    have trimmed := runeCount_trimSpace_encode_le (scalarValues_isScalar s)
    rw [arrives, List.length_map] at trimmed
    rw [countCodePoints_eq] at short
    omega
  · cases control

/-- **The same limits.**  For every text, whatever surrogates stand alone in it,
the browser counts as many code points as the server counts characters of what
arrives, in which each such surrogate is one replacement character.  So the
editor reports a text as too long exactly when `Create` would refuse it as too
large, and a title that the save dialog accepts is not refused for its length. -/
theorem limits_agree
    (options : Store.Options)
    (validated : 1 ≤ options.maxChars)
    (content language title : JsString)
    (expiresIn : Int64) :
    ∃ request, save content language title expiresIn = some request ∧
      request.content =
        ((codePoints content).map scalarValue).flatMap encodeRune ∧
      countCodePoints content = runeCount request.content ∧
      (overLimit options.maxChars content = true ↔
        ∃ chars limit, Store.checkRequest options request.toStore =
          .error (.tooLarge chars limit)) ∧
      (tooLong Store.maxTitleChars title = false →
        ∀ chars, Store.cleanTitle request.toStore.title ≠
          .error (.titleTooLong chars)) := by
  refine ⟨_, by rw [save, received_eq, received_eq, received_eq]; rfl, rfl, ?_⟩
  have counted := runeCount_received (received_eq content)
  refine ⟨counted.symm, ?_, ?_⟩
  · rw [checkRequest_tooLarge_iff validated, overLimit, decide_eq_true_iff,
      ← counted]
    rfl
  · intro accepted
    rw [tooLong, decide_eq_false_iff_not, not_lt] at accepted
    exact cleanTitle_of_received (received_eq (trim title)) accepted

/-- One character, half of a pair, and a title with a byte order mark around it,
which the browser trims. -/
theorem limits_agree_surrogate :
    1 ≤ Store.Options.small.maxChars ∧
    ∃ request, save [0xD83D] [] [0xFEFF, 0x61] 0 = some request ∧
      (overLimit Store.Options.small.maxChars [0xD83D] = true ↔
        ∃ chars limit, Store.checkRequest Store.Options.small request.toStore =
          .error (.tooLarge chars limit)) := by
  have validated : 1 ≤ Store.Options.small.maxChars := by decide
  obtain ⟨request, saved, -, -, content, -⟩ :=
    limits_agree Store.Options.small validated [0xD83D] [] [0xFEFF, 0x61] 0
  exact ⟨validated, request, saved, content⟩

end Web
end Haste
