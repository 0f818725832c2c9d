import Haste.HttpApi.Vary

/-!
# What a revalidation says of a response

A 304 tells a cache that its copy is current, with the fields of the response it
stands for.  `buffered` sends it before `gzipped` names `Accept-Encoding` and
before a compressed body makes the tag weak, so what the cache is told is never
what it was told with the copy.
-/

namespace Haste
namespace HttpApi

open Go

/-- The same request without `If-None-Match`. -/
def Incoming.unconditional (request : Incoming) : Incoming :=
  { request with header := request.header.del "If-None-Match" }

/-- Two responses bear the same validator and say the same about caches. -/
structure Response.SaysTheSame (response other : Response) : Prop where
  etag : response.header.values "Etag" = other.header.values "Etag"
  vary : response.header.values "Vary" = other.header.values "Vary"
  cacheControl : response.header.values "Cache-Control" =
    other.header.values "Cache-Control"

section

variable
  {encoders : Encoders}
  {outer : Header}
  {request : Incoming}
  {output : Response}

/-- The full response to a request is that to the unconditional one. -/
theorem buffered_unconditional :
    buffered encoders outer request.unconditional output =
      respond encoders request.unconditional output.sentStatus
        (taggedHeader encoders outer request output) output.body := by
  apply buffered_of_not_revalidates
  apply not_revalidates_of_unconditional
  simp [Incoming.unconditional, Header.get]

/-- Only a read whose client is up to date is answered 304. -/
theorem revalidates_of_answered
    (ok : output.sentStatus = 200)
    (answered : (buffered encoders outer request output).status = 304) :
    Revalidates encoders request output := by
  by_contra fresh
  rw [buffered_status_eq fresh, ok] at answered
  cases answered

/-- A field of a 304 that is not about its body is that of the tagged header. -/
theorem revalidated_values
    (revalidates : Revalidates encoders request output)
    {name : String}
    (notType : name ≠ "Content-Type")
    (notLength : name ≠ "Content-Length") :
    (buffered encoders outer request output).header.values name =
      (taggedHeader encoders outer request output).values name := by
  rw [buffered_of_revalidates revalidates]
  simp [notType, notLength]

/-- The full response names `Accept-Encoding` besides. -/
theorem unconditional_vary :
    (buffered encoders outer request.unconditional output).header.values "Vary" =
      (taggedHeader encoders outer request output).values "Vary" ++
        [ascii "Accept-Encoding"] := by
  rw [buffered_unconditional]
  unfold respond
  rw [Header.values_set_of_ne _ _ _ _ (by decide), gzipped_vary]

theorem unconditional_cacheControl :
    (buffered encoders outer request.unconditional output).header.values
        "Cache-Control" =
      (taggedHeader encoders outer request output).values "Cache-Control" := by
  rw [buffered_unconditional]
  unfold respond
  rw [Header.values_set_of_ne _ _ _ _ (by decide),
    gzipped_values_of_ne (by decide) (by decide) (by decide)]

/-- The tag of the full response is weak exactly when its body is compressed. -/
theorem respond_etag_values
    {header : Header}
    (tagged : header.values "Etag" = [encoders.etagFor output.body])
    (status : Nat)
    (body : Bytes) :
    (respond encoders request status header body).header.values "Etag" =
      if (encoders.gzipped request header body).2.isSome then
        [ascii "W/" ++ encoders.etagFor output.body]
      else [encoders.etagFor output.body] := by
  have quoted := encoders.etagFor_isQuoted output.body
  unfold respond
  rw [Header.values_set_of_ne _ _ _ _ (by decide)]
  rcases gzipped_eq encoders request header body with same | same
  · simp [same, tagged]
  · simp [same, Encoders.gzipHeader, Header.get, tagged, quoted.ne_nil,
      quoted.hasPrefix_eq]

/-- **Revalidation.**  A 304 never says the same as the full response to the same
request: `Accept-Encoding` is missing from its `Vary`, and its tag is strong
where the full response, being compressed, has a weak one.  Only its
`Cache-Control` is the same. -/
theorem revalidation_differs
    (encoders : Encoders)
    (outer : Header)
    (request : Incoming)
    (output : Response)
    (isGet : request.method = ascii "GET")
    (ok : output.sentStatus = 200)
    (answered : (buffered encoders outer request output).status = 304) :
    let revalidated := buffered encoders outer request output
    let full := buffered encoders outer request.unconditional output
    ¬revalidated.SaysTheSame full ∧
    full.header.values "Vary" =
      revalidated.header.values "Vary" ++ [ascii "Accept-Encoding"] ∧
    full.header.values "Cache-Control" =
      revalidated.header.values "Cache-Control" ∧
    revalidated.header.values "Etag" = [encoders.etagFor output.body] ∧
    full.header.values "Etag" =
      if (encoders.gzipped request.unconditional
        (taggedHeader encoders outer request output) output.body).2.isSome then
        [ascii "W/" ++ encoders.etagFor output.body]
      else [encoders.etagFor output.body] := by
  intro revalidated full
  have revalidates := revalidates_of_answered ok answered
  have tagged : (taggedHeader encoders outer request output).values "Etag" =
      [encoders.etagFor output.body] := by
    rw [taggedHeader, if_pos ⟨ok, (isRead_iff request).mpr (Or.inl isGet)⟩,
      Header.values_set_self]
  have vary : full.header.values "Vary" =
      revalidated.header.values "Vary" ++ [ascii "Accept-Encoding"] := by
    rw [revalidated_values revalidates (by decide) (by decide)]
    exact unconditional_vary
  refine ⟨?_, vary, ?_, ?_, ?_⟩
  · intro same
    have lengths := congrArg List.length (same.vary.trans vary)
    simp at lengths
  · rw [unconditional_cacheControl,
      revalidated_values revalidates (by decide) (by decide)]
  · rw [revalidated_values revalidates (by decide) (by decide), tagged]
  · simp only [full, buffered_unconditional]
    exact respond_etag_values tagged _ _

end

/-- A client that has the text `a`. -/
def Incoming.again : Incoming :=
  { Incoming.first with
    header := Header.empty.set "If-None-Match" (ascii "\"ypeBEsobvcr6wjGz\"") }

theorem revalidation_differs_small :
    Incoming.again.method = ascii "GET" ∧ Response.small.sentStatus = 200 ∧
    (buffered .small .empty .again .small).status = 304 ∧
    ¬(buffered .small .empty .again .small).SaysTheSame
      (buffered .small .empty Incoming.again.unconditional .small) :=
  ⟨rfl, rfl, by decide +kernel,
    (revalidation_differs .small .empty .again .small rfl rfl
      (by decide +kernel)).1⟩

/-- The 304 for the text `a` says nothing of `Accept-Encoding`. -/
theorem revalidation_forgets_vary :
    (buffered .small .empty .again .small).status = 304 ∧
    (buffered .small .empty .again .small).header.values "Vary" = [] ∧
    (buffered .small .empty Incoming.again.unconditional .small).header.values
      "Vary" = [ascii "Accept-Encoding"] := by
  refine ⟨by decide +kernel, by decide +kernel, by decide +kernel⟩

end HttpApi
end Haste
