import Haste.Go.Consumption
import Haste.Go.Numbers
import Haste.HttpApi.Create

/-!
# The JSON envelope

`json.Unmarshal` stores the members of an object one after the other into the
fields that their names fold to.  A value of another type is an error, `null`
leaves a field as it is, and members of other names are passed over.  Whatever
is decoded is valid text, and the literal of the content is a part of the body.
-/

namespace Haste
namespace HttpApi

open Go

/-- `literalStore` into a string. -/
def storeString (old : Bytes) : Json → Option Bytes
  | .null => some old
  | .string literal => unescape literal
  | _ => none

/-- `literalStore` into an `int64`. -/
def storeInt64 (old : Int64) : Json → Option Int64
  | .null => some old
  | .number text => (parseInt text).map Int64.ofInt
  | _ => none

/-- The names of the members that hold the content. -/
def namesContent (name : Bytes) : Bool := equalFold name (ascii "content")

/-- A member of the envelope, stored into the field of its name. -/
def CreateRequest.store
    (request : CreateRequest)
    (member : Bytes × Json) : Option CreateRequest :=
  (unescape member.1).bind fun name =>
    if namesContent name then
      (storeString request.content member.2).map fun content =>
        { request with content }
    else if equalFold name (ascii "language") then
      (storeString request.language member.2).map fun language =>
        { request with language }
    else if equalFold name (ascii "title") then
      (storeString request.title member.2).map fun title =>
        { request with title }
    else if equalFold name (ascii "expiresIn") then
      (storeInt64 request.expiresIn member.2).map fun expiresIn =>
        { request with expiresIn }
    else some request

/-- A request that nothing was stored into. -/
def CreateRequest.zero : CreateRequest where
  content := []
  language := []
  title := []
  expiresIn := 0

/-- `json.Unmarshal` into a `createRequest`. -/
def unmarshal (body : Bytes) : Option CreateRequest :=
  match readDocument body with
  | some (.object members) => members.foldlM CreateRequest.store .zero
  | some .null => some .zero
  | _ => none

/-- The literal that a member leaves as the one of the content. -/
def nextLiteral (literal : Bytes) (member : Bytes × Json) : Bytes :=
  match member.2 with
  | .string next =>
      if (unescape member.1).any namesContent then next else literal
  | _ => literal

/-- The literal of the content in a JSON body. -/
def contentLiteral (body : Bytes) : Bytes :=
  match readDocument body with
  | some (.object members) => members.foldl nextLiteral []
  | _ => []

/-- The content as a body carries it: a literal, or the body itself. -/
def encodedContent (contentType body : Bytes) : Bytes :=
  if isJSON contentType then contentLiteral body else body

example : (unmarshal (ascii "\x7b\"Content\": \"a\\u00e9\", \"expiresIn\":60\x7d")).map
    (fun request => (request.content, request.expiresIn)) =
      some ([0x61, 0xC3, 0xA9], 60) := by
  decide +kernel

/-! ## What is decoded -/

/-- A member leaves the content that the literal decodes to. -/
theorem unescape_nextLiteral
    {request next : CreateRequest}
    {literal : Bytes}
    {member : Bytes × Json}
    (decodes : unescape literal = some request.content)
    (stored : request.store member = some next) :
    unescape (nextLiteral literal member) = some next.content := by
  obtain ⟨name, named, stored⟩ := Option.bind_eq_some_iff.mp stored
  have other : ∀ next : CreateRequest, next.content = request.content →
      namesContent name = false →
      unescape (nextLiteral literal member) = some next.content := by
    intro next same notContent
    rw [same, ← decodes]
    unfold nextLiteral
    cases member.2 with
    | string literal => simp [named, notContent]
    | _ => rfl
  split_ifs at stored with content language title expires
  · obtain ⟨text, isText, rfl⟩ := Option.map_eq_some_iff.mp stored
    unfold nextLiteral
    cases value : member.2 with
    | null =>
        rw [value] at isText
        cases isText
        exact decodes
    | string next =>
        rw [value] at isText
        have decodesNext : unescape next = some text := isText
        simpa [named, content] using decodesNext
    | _ =>
        rw [value] at isText
        cases isText
  all_goals
    have notContent := Bool.eq_false_iff.mpr content
  · obtain ⟨text, -, rfl⟩ := Option.map_eq_some_iff.mp stored
    exact other _ rfl notContent
  · obtain ⟨text, -, rfl⟩ := Option.map_eq_some_iff.mp stored
    exact other _ rfl notContent
  · obtain ⟨text, -, rfl⟩ := Option.map_eq_some_iff.mp stored
    exact other _ rfl notContent
  · cases stored
    exact other _ rfl notContent

theorem unescape_foldl
    {request last : CreateRequest}
    {literal : Bytes}
    {members : List (Bytes × Json)}
    (decodes : unescape literal = some request.content)
    (stored : members.foldlM CreateRequest.store request = some last) :
    unescape (members.foldl nextLiteral literal) = some last.content := by
  induction members generalizing request literal with
  | nil =>
      cases stored
      exact decodes
  | cons member members inductionHypothesis =>
      rw [List.foldlM_cons] at stored
      obtain ⟨next, storedFirst, storedLater⟩ := Option.bind_eq_some_iff.mp stored
      exact inductionHypothesis (unescape_nextLiteral decodes storedFirst)
        storedLater

/-- The content of an envelope is what its literal decodes to. -/
theorem unescape_contentLiteral
    {body : Bytes}
    {envelope : CreateRequest}
    (decoded : unmarshal body = some envelope) :
    unescape (contentLiteral body) = some envelope.content := by
  unfold unmarshal at decoded
  unfold contentLiteral
  split at decoded
  case h_1 members read =>
    rw [read]
    exact unescape_foldl rfl decoded
  case h_2 read =>
    rw [read]
    cases decoded
    rfl
  case h_3 => cases decoded

/-- The literal of the content is one of a member, or there is none. -/
theorem foldl_nextLiteral_mem
    (members : List (Bytes × Json))
    (literal : Bytes) :
    members.foldl nextLiteral literal = literal ∨
      ∃ name, (name, Json.string (members.foldl nextLiteral literal)) ∈ members := by
  induction members generalizing literal with
  | nil => exact Or.inl rfl
  | cons member members inductionHypothesis =>
      rw [List.foldl_cons]
      rcases inductionHypothesis (nextLiteral literal member) with
        same | ⟨name, listed⟩
      · rw [same]
        obtain ⟨name, value⟩ := member
        unfold nextLiteral
        cases value with
        | string next =>
            simp only
            split
            · exact Or.inr ⟨name, List.mem_cons_self⟩
            · exact Or.inl rfl
        | _ => exact Or.inl rfl
      · exact Or.inr ⟨name, List.mem_cons_of_mem _ listed⟩

theorem isInfix_contentLiteral (body : Bytes) : contentLiteral body <:+: body := by
  unfold contentLiteral
  split
  case h_1 members read =>
    rcases foldl_nextLiteral_mem members [] with empty | ⟨name, listed⟩
    · rw [empty]
      exact List.nil_infix
    · exact isInfix_document_literal read listed
  case h_2 => exact List.nil_infix

end HttpApi
end Haste
