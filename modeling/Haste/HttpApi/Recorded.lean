import Haste.HttpApi.Links

/-!
# What the handlers write

Every handler but two runs inside `buffered`, which records its response.  Such a
response has a status of its own, never that of an unchanged document, and sets
only fields that neither `buffered` nor the layers around it set.
-/

namespace Haste
namespace HttpApi

open Go

/-- The fields that handlers set. -/
def handlerFields : List String :=
  ["Cache-Control", "X-Robots-Tag", "Content-Type", "Content-Security-Policy",
    "Content-Disposition", "Retry-After", "Location", "Www-Authenticate"]

/-- A header of these fields alone. -/
def Header.Proper (header : Header) : Prop :=
  ∀ name, name ∉ handlerFields → header.values name = []

theorem Header.proper_empty : Header.Proper Header.empty := fun _ _ => rfl

theorem Header.Proper.set
    {header : Header}
    (proper : Header.Proper header)
    {name : String}
    (isField : name ∈ handlerFields)
    (value : Bytes) :
    Header.Proper (header.set name value) := by
  intro other notField
  have isOther : other ≠ name := by
    rintro rfl
    exact notField isField
  rw [Header.values_set_of_ne _ _ _ _ isOther]
  exact proper other notField

/-- What a handler may write: a success or an error, and a header of its own
fields. -/
structure Response.Proper (response : Response) : Prop where
  status : response.status = 200 ∨ response.status = 201 ∨
    400 ≤ response.status
  header : Header.Proper response.header

theorem Response.Proper.sentStatus
    {response : Response}
    (proper : response.Proper) :
    response.sentStatus = response.status := by
  rw [Response.sentStatus, if_neg]
  rcases proper.status with ok | created | error <;> omega

theorem writeJSON_proper
    {header : Header}
    {status : Nat}
    (isStatus : status = 200 ∨ status = 201 ∨ 400 ≤ status)
    (proper : Header.Proper header)
    (encoded : Option Bytes) :
    (writeJSON header status encoded).Proper :=
  ⟨isStatus, proper.set (by decide) _⟩

theorem ErrorResponse.write_proper
    {error : ErrorResponse}
    (isError : 400 ≤ error.status) :
    error.write.Proper := by
  refine writeJSON_proper (Or.inr (Or.inr isError)) ?_ _
  split
  · exact Header.proper_empty.set (by decide) _
  · exact Header.proper_empty

theorem ErrorResponse.writeOver_proper
    {error : ErrorResponse}
    (isError : 400 ≤ error.status)
    {header : Header}
    (proper : Header.Proper header) :
    (error.writeOver header).Proper := by
  refine ⟨Or.inr (Or.inr isError), ?_⟩
  intro name notField
  change (header.merge error.write.header).values name = []
  rw [Header.values_merge, (write_proper isError).header name notField, if_pos rfl]
  exact proper name notField

theorem Route.handle_proper
    (route : Route)
    (config : Config)
    (texts : Texts)
    (now : Int)
    (request : Incoming)
    (answer : Except Store.Error (Store.Paste × Bytes)) :
    (route.handle config texts now request answer).Proper := by
  refine ⟨?_, ?_⟩
  · cases answer with
    | error error => exact Or.inr (Or.inr (fail_status error))
    | ok served =>
        exact Or.inl (route.handle_ok config texts now request _ _).1
  · intro name notField
    refine Route.handle_unset (fun listed => notField ?_) route config texts now
      request answer
    simp only [handlerFields, List.mem_cons, List.not_mem_nil, or_false]
      at listed ⊢
    tauto

theorem handleStats_proper
    (settings : StatsSettings)
    (texts : Texts)
    (now : Int)
    (request : Incoming)
    (scan : Except Unit Store.Stats)
    (cache : Foundation.Cache Store.Stats) :
    (handleStats settings texts now request scan cache).1.Proper := by
  have header : Header.Proper settings.header := by
    unfold StatsSettings.header
    split
    · exact Header.proper_empty.set (by decide) _
    · exact Header.proper_empty.set (by decide) _
  rw [handleStats_eq]
  split
  · unfold writeStats
    split
    · exact writeJSON_proper (Or.inl rfl) header _
    · exact ErrorResponse.writeOver_proper (by decide) header
  · unfold StatsSettings.refusal
    split
    · exact ErrorResponse.writeOver_proper (by decide)
        (Header.proper_empty.set (by decide) _)
    · exact ErrorResponse.write_proper (by decide)

/-! ## All handlers -/

section Recorded

variable {site : Site} {server : Server} {store : Store.OpenStore}
  {request : HttpRequest} {occasion : Occasion} {endpoint : Endpoint}
  {code : Bytes} {written : Response}

theorem recorded_proper
    (isRecorded : server.recorded site store request occasion endpoint code =
      some written) :
    written.Proper := by
  have refused : ∀ error, (server.made site store request occasion).1 =
      .error error → error.write.Proper := fun error made =>
    ErrorResponse.write_proper (create_error_status store.options occasion.env
      store.db (Prod.ext made rfl))
  cases endpoint with
  | health | ui => cases isRecorded
  | config =>
      cases isRecorded
      exact writeJSON_proper (Or.inl rfl)
        (Header.proper_empty.set (by decide) _) _
  | stats =>
      cases isRecorded
      exact handleStats_proper _ _ _ _ _ _
  | read | raw | download =>
      cases isRecorded
      exact Route.handle_proper _ _ _ _ _ _
  | create =>
      cases isRecorded
      split
      · exact writeJSON_proper (Or.inr (Or.inl rfl))
          (Header.proper_empty.set (by decide) _) _
      · exact refused _ ‹_›
  | legacyCreate =>
      cases isRecorded
      split
      · exact writeJSON_proper (Or.inl rfl) Header.proper_empty _
      · exact refused _ ‹_›
  | legacyRead =>
      cases isRecorded
      split
      · exact writeJSON_proper (Or.inl rfl)
          (Header.proper_empty.set (by decide) _) _
      · exact ErrorResponse.write_proper (fail_status _)

/-- What is sent of it. -/
theorem output_of_recorded
    (isRecorded : server.recorded site store request occasion endpoint code =
      some written)
    (header : Header) :
    server.output site store request occasion endpoint code header =
      buffered site.encoders header (request.incoming code) written := by
  rw [Server.output, isRecorded]

end Recorded

end HttpApi
end Haste
