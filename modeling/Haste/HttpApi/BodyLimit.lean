import Haste.Config.Validate
import Haste.HttpApi.Envelope

/-!
# The limit on request bodies

A body may be twelve times as long as the content may have characters, and some
more for the envelope.  No character takes more than twelve bytes of a literal,
so the limit cuts off no content that the count of its characters would allow.
-/

namespace Haste
namespace HttpApi

open Go

/-- `io.ReadAll` of an `http.MaxBytesReader` over a body that arrives in full. -/
def readBody (limit : Int64) (sent : Bytes) : Except ReadError Bytes :=
  if max limit.toInt 0 < sent.length then .error .tooLarge else .ok sent

/-- Content is encoded in no more than twelve bytes for each of its
characters. -/
theorem length_encodedContent_le
    {contentType body : Bytes}
    {envelope : CreateRequest}
    (decoded : decodeBody unmarshal contentType body = some envelope) :
    (encodedContent contentType body).length ≤ 12 * runeCount envelope.content := by
  unfold decodeBody at decoded
  unfold encodedContent
  split at decoded
  case isTrue json =>
    rw [if_pos json]
    exact length_le_of_unescape (unescape_contentLiteral decoded)
  case isFalse raw =>
    rw [if_neg raw]
    cases decoded
    have narrow := length_le_runeCount body
    simp only
    omega

/-- **The body limit.**  Content is a part of the body and takes at most twelve
bytes of it for each character that the server counts.  So where the limit is
computed without wrapping, a request whose content has at most `MaxChars`
characters and whose other bytes are at most 4096 is read in full. -/
theorem body_limit_allows
    {contentType body : Bytes}
    {envelope : CreateRequest}
    (decoded : decodeBody unmarshal contentType body = some envelope) :
    encodedContent contentType body <:+: body ∧
    (encodedContent contentType body).length ≤ 12 * runeCount envelope.content ∧
    ∀ c : Config.Settings, 12 * c.maxChars.toInt + 4096 < 2 ^ 63 →
      (runeCount envelope.content : Int) ≤ c.maxChars.toInt →
      body.length ≤ (encodedContent contentType body).length + 4096 →
      readBody c.maxBodyBytes body = .ok body := by
  have narrow := length_encodedContent_le decoded
  refine ⟨?_, narrow, ?_⟩
  · unfold encodedContent
    split
    · exact isInfix_contentLiteral body
    · exact List.infix_refl body
  · intro c fits within others
    have limit := Config.Settings.toInt_maxBodyBytes (by omega) fits
    rw [readBody, if_neg]
    rw [limit]
    omega

/-- An envelope whose two characters take twelve bytes and one, at a limit of two
characters. -/
theorem body_limit_allows_small :
    let body := ascii "\x7b\"content\":\"\\ud83d\\udc4ba\"\x7d"
    let c := { Config.Settings.standard with maxChars := 2 }
    (encodedContent (ascii "application/json") body).length = 13 ∧
      readBody c.maxBodyBytes body = .ok body := by
  intro body c
  have content : (decodeBody unmarshal (ascii "application/json") body).map
      CreateRequest.content = some [0xF0, 0x9F, 0x91, 0x8B, 0x61] := by
    decide +kernel
  obtain ⟨envelope, decoded, isContent⟩ := Option.map_eq_some_iff.mp content
  have spec := body_limit_allows decoded
  exact ⟨by decide +kernel,
    spec.2.2 c (by decide) (by rw [isContent]; decide) (by decide +kernel)⟩

end HttpApi
end Haste
