import Haste.HttpApi.Recorded

/-!
# Content that strangers have sent

Every response passes the layer that sets the security fields, and no handler
unsets them.  The content of a paste leaves the server as JSON, or as plain text
under a policy that sandboxes it.  The pages are made of what is known about a
paste, and are the same whatever its content is.
-/

namespace Haste
namespace HttpApi

open Go

/-- The fields that `securityHeaders` sets. -/
def securityFields : List (String × Bytes) :=
  [("X-Content-Type-Options", ascii "nosniff"),
    ("Referrer-Policy", ascii "no-referrer"),
    ("X-Frame-Options", ascii "DENY")]

/-- A header with each security field, once. -/
def Header.Secure (header : Header) : Prop :=
  ∀ field ∈ securityFields, header.values field.1 = [field.2]

/-- What is known of `net/http`: it keeps the security fields it finds set. -/
structure NetHTTP.Keeps (net : NetHTTP) : Prop where
  serveContent : ∀ request header name content, Header.Secure header →
    Header.Secure (net.serveContent request header name content).header
  reply : ∀ request routed header, Header.Secure header →
    Header.Secure (net.reply request routed header).header

/-! ## The security fields -/

/-- No security field has this name. -/
abbrev NotSecurity (name : String) : Prop :=
  name ∉ securityFields.map Prod.fst

namespace Header.Secure

variable {header other : Header}

/-- A header that differs in other fields only. -/
theorem congr
    (secure : Header.Secure header)
    (same : ∀ name ∈ securityFields.map Prod.fst,
      other.values name = header.values name) :
    Header.Secure other := by
  intro field listed
  rw [same field.1 (List.mem_map_of_mem listed)]
  exact secure field listed

theorem set
    (secure : Header.Secure header)
    {name : String}
    (notSecurity : NotSecurity name)
    (value : Bytes) :
    Header.Secure (header.set name value) := by
  refine secure.congr fun field listed => Header.values_set_of_ne _ _ _ _ ?_
  rintro rfl
  exact notSecurity listed

theorem add
    (secure : Header.Secure header)
    {name : String}
    (notSecurity : NotSecurity name)
    (value : Bytes) :
    Header.Secure (header.add name value) := by
  refine secure.congr fun field listed => Header.values_add_of_ne _ _ _ _ ?_
  rintro rfl
  exact notSecurity listed

theorem del
    (secure : Header.Secure header)
    {name : String}
    (notSecurity : NotSecurity name) :
    Header.Secure (header.del name) := by
  refine secure.congr fun field listed => Header.values_del_of_ne _ _ _ ?_
  rintro rfl
  exact notSecurity listed

/-- What a handler has written does not touch them. -/
theorem merge
    (secure : Header.Secure header)
    (proper : Header.Proper other) :
    Header.Secure (header.merge other) := by
  refine secure.congr fun name listed => ?_
  have untouched : (securityFields.map Prod.fst).all
      (fun name => decide (name ∉ handlerFields)) = true := by
    decide
  have notField := of_decide_eq_true (List.all_eq_true.mp untouched name listed)
  rw [Header.values_merge, proper name notField, if_pos rfl]

end Header.Secure

theorem securityHeaders_secure (header : Header) :
    Header.Secure (securityHeaders header) := by
  intro field listed
  simp only [securityFields, List.mem_cons, List.not_mem_nil, or_false] at listed
  rcases listed with rfl | rfl | rfl
  · simp [securityHeaders]
  · simp [securityHeaders]
  · simp [securityHeaders]

theorem corsHeader_secure
    {header : Header}
    (secure : Header.Secure header)
    (config : Config)
    (request : Incoming) :
    Header.Secure (corsHeader config request header) := by
  refine secure.congr fun name listed => ?_
  refine corsHeader_values_of_ne ?_ ?_
  · rintro rfl
    exact absurd listed (by decide)
  · rintro rfl
    exact absurd listed (by decide)

/-- `buffered` adds its own fields to those of the layers around it. -/
theorem buffered_secure
    {encoders : Encoders}
    {outer : Header}
    {request : Incoming}
    {written : Response}
    (secure : Header.Secure outer)
    (proper : Header.Proper written.header) :
    Header.Secure (buffered encoders outer request written).header := by
  have tagged : Header.Secure (taggedHeader encoders outer request written) := by
    unfold taggedHeader
    split
    · exact (secure.merge proper).set (by decide) _
    · exact secure.merge proper
  by_cases revalidates : Revalidates encoders request written
  · rw [buffered_of_revalidates revalidates]
    exact (tagged.del (by decide)).del (by decide)
  · rw [buffered_of_not_revalidates revalidates, respond]
    refine Header.Secure.set ?_ (by decide) _
    rcases gzipped_eq encoders request
        (taggedHeader encoders outer request written) written.body with same | same
    · rw [same]
      exact tagged.add (by decide) _
    · rw [same]
      unfold Encoders.gzipHeader
      have varied : Header.Secure
          ((taggedHeader encoders outer request written).add "Vary"
            (ascii "Accept-Encoding")) := tagged.add (by decide) _
      have encoded := varied.set (show NotSecurity "Content-Encoding" by decide)
        (ascii "gzip")
      simp only
      split
      · exact encoded.set (by decide) _
      · exact encoded

section Frontend

variable (site : Site) (request : HttpRequest) {header : Header}
  (described : Bytes → Option Store.Paste) (now : Int)

theorem serveIndex_secure (secure : Header.Secure header) :
    Header.Secure (serveIndex site request header described now).header := by
  have page : Header.Secure ((header.set "Content-Type"
      (ascii "text/html; charset=utf-8")).set "Cache-Control"
        (ascii "no-cache")) :=
    (secure.set (by decide) _).set (by decide) _
  unfold serveIndex
  cases site.frontend.shell with
  | none => exact page
  | some shell =>
      have tagged : ∀ tag, Header.Secure (Header.set
          (if (request.pageCode.bind described).isSome then
            noIndex ((header.set "Content-Type"
              (ascii "text/html; charset=utf-8")).set "Cache-Control"
                (ascii "no-cache"))
          else (header.set "Content-Type"
              (ascii "text/html; charset=utf-8")).set "Cache-Control"
                (ascii "no-cache")) "Etag" tag) := by
        intro tag
        refine Header.Secure.set ?_ (by decide) _
        split
        · exact page.set (by decide) _
        · exact page
      simp only
      split
      · exact (tagged _).del (by decide)
      · exact tagged _

theorem handleUI_secure
    (keeps : site.net.Keeps)
    (secure : Header.Secure header) :
    Header.Secure (handleUI site request header described now).header := by
  have index := serveIndex_secure site request described now secure
  unfold handleUI
  simp only
  split
  · exact index
  · split
    · refine keeps.serveContent _ _ _ _ ?_
      exact (secure.set (by decide) _).set (by decide) _
    · unfold missingUIFile
      split
      · exact secure.merge (ErrorResponse.write_proper (by decide)).header
      · exact index

end Frontend

/-- Every response carries the security fields. -/
theorem Server.answer_secure
    {site : Site}
    (keeps : site.net.Keeps)
    {server : Server}
    {request : HttpRequest}
    {occasion : Occasion}
    {response : Response}
    (answered : server.answer site request occasion = some response) :
    Header.Secure response.header := by
  have outer : Header.Secure (outerHeader site request) :=
    corsHeader_secure (securityHeaders_secure _) _ _
  unfold Server.answer at answered
  split at answered
  · cases answered
  case h_2 store isOpen =>
    have bare : Header.Secure (cors site.config (request.incoming [])
        (securityHeaders Header.empty)
        (server.routed site store request occasion)).header := by
      unfold cors
      simp only
      split
      · exact ((outer.set (by decide) _).set (by decide) _).set (by decide) _
      · unfold Server.routed
        split
        case h_1 endpoint code routed =>
          cases isRecorded : server.recorded site store request occasion endpoint
              code with
          | some written =>
              rw [output_of_recorded isRecorded]
              exact buffered_secure outer (recorded_proper isRecorded).header
          | none =>
              cases endpoint with
              | health => exact outer.set (by decide) _
              | ui => exact handleUI_secure _ _ _ _ keeps outer
              | _ => cases isRecorded
        case h_2 => exact keeps.reply _ _ _ outer
    rw [Option.some.injEq] at answered
    subst answered
    split
    · exact bare
    · exact bare

/-! ## The types of the responses -/

/-- Text that a browser does not run: JSON, or plain text under a policy that
allows nothing and sandboxes it. -/
def Header.Inert (header : Header) : Prop :=
  header.values "Content-Type" = [ascii "application/json; charset=utf-8"] ∨
    header.values "Content-Type" = [ascii "text/plain; charset=utf-8"] ∧
      ∃ policy, header.values "Content-Security-Policy" = [policy] ∧
        hasPrefix policy (ascii "default-src 'none'; ") = true ∧
        hasSuffix policy (ascii "; sandbox") = true

theorem writeJSON_inert (header : Header) (status : Nat) (encoded : Option Bytes) :
    Header.Inert (writeJSON header status encoded).header :=
  Or.inl (Header.values_set_self _ _ _)

theorem ErrorResponse.writeOver_inert (header : Header) (error : ErrorResponse) :
    Header.Inert (error.writeOver header).header := by
  refine Or.inl ?_
  have own : error.write.header.values "Content-Type" =
      [ascii "application/json; charset=utf-8"] := Header.values_set_self _ _ _
  change (header.merge error.write.header).values _ = _
  rw [Header.values_merge, own, if_neg (List.cons_ne_nil _ _)]

theorem Route.handle_inert
    (route : Route)
    (config : Config)
    (texts : Texts)
    (now : Int)
    (request : Incoming)
    (answer : Except Store.Error (Store.Paste × Bytes)) :
    Header.Inert (route.handle config texts now request answer).header := by
  cases answer with
  | error error => exact writeJSON_inert _ _ _
  | ok served =>
      cases route with
      | read => exact writeJSON_inert _ _ _
      | raw =>
          refine Or.inr ⟨?_,
            ascii "default-src 'none'; style-src 'unsafe-inline'; sandbox", ?_,
            by decide, by decide⟩
          · simp [Route.handle, handleRaw, setCacheControl]
          · simp [Route.handle, handleRaw, setCacheControl]
      | download =>
          refine Or.inr ⟨?_, ascii "default-src 'none'; sandbox", ?_,
            by decide, by decide⟩
          · simp [Route.handle, handleDownload, setCacheControl]
          · simp [Route.handle, handleDownload, setCacheControl]

/-- Every recorded handler answers text that a browser does not run. -/
theorem recorded_inert
    {site : Site}
    {server : Server}
    {store : Store.OpenStore}
    {request : HttpRequest}
    {occasion : Occasion}
    {endpoint : Endpoint}
    {code : Bytes}
    {written : Response}
    (isRecorded : server.recorded site store request occasion endpoint code =
      some written) :
    Header.Inert written.header := by
  cases endpoint with
  | health | ui => cases isRecorded
  | config =>
      cases isRecorded
      exact writeJSON_inert _ _ _
  | stats =>
      cases isRecorded
      rw [handleStats_eq]
      split
      · unfold writeStats
        split
        · exact writeJSON_inert _ _ _
        · exact ErrorResponse.writeOver_inert _ _
      · unfold StatsSettings.refusal
        split
        · exact ErrorResponse.writeOver_inert _ _
        · exact writeJSON_inert _ _ _
  | read | raw | download =>
      cases isRecorded
      exact Route.handle_inert _ _ _ _ _ _
  | create | legacyCreate | legacyRead =>
      cases isRecorded
      split <;> exact writeJSON_inert _ _ _

/-- So does `buffered`, unless it answers without a body. -/
theorem buffered_inert
    {encoders : Encoders}
    {outer : Header}
    {request : Incoming}
    {written : Response}
    (inert : Header.Inert written.header) :
    Header.Inert (buffered encoders outer request written).header ∨
      (buffered encoders outer request written).status = 304 ∧
        (buffered encoders outer request written).body = [] := by
  by_cases revalidates : Revalidates encoders request written
  · rw [buffered_of_revalidates revalidates]
    exact Or.inr ⟨rfl, rfl⟩
  · have merged : ∀ name, name ∉ ["Vary", "Content-Encoding", "Etag",
        "Content-Length"] → written.header.values name ≠ [] →
          (buffered encoders outer request written).header.values name =
            written.header.values name := by
      intro name untouched some
      rw [buffered_values untouched revalidates, Header.values_merge, if_neg some]
    refine Or.inl ?_
    rcases inert with json | ⟨plain, policy, isPolicy, allows, sandboxes⟩
    · refine Or.inl ?_
      rw [merged _ (by decide) (by simp [json]), json]
    · refine Or.inr ⟨?_, policy, ?_, allows, sandboxes⟩
      · rw [merged _ (by decide) (by simp [plain]), plain]
      · rw [merged _ (by decide) (by simp [isPolicy]), isPolicy]

end HttpApi

/-! ## What the pages are made of -/

namespace Store

open Go

/-- A row with another body. -/
def Row.Redacts (row other : Row) : Prop :=
  other = { row with body := other.body, codec := other.codec }

/-- Stores that differ in the stored bodies alone. -/
structure OpenStore.Redacts (store other : OpenStore) : Prop where
  rows : List.Forall₂ Row.Redacts store.db.pastes.rows other.db.pastes.rows
  ttlAccess : other.options.ttlAccess = store.options.ttlAccess
  ttlCreate : other.options.ttlCreate = store.options.ttlCreate

/-- A search finds rows that differ in the bodies alone. -/
theorem find?_redacts
    {wanted otherWanted : Row → Bool}
    (same : ∀ row other, row.Redacts other → otherWanted other = wanted row)
    {rows others : List Row}
    (redacts : List.Forall₂ Row.Redacts rows others) :
    Option.Rel Row.Redacts (rows.find? wanted) (others.find? otherWanted) := by
  induction redacts with
  | nil => exact .none
  | @cons row other rest otherRest here _ inductionHypothesis =>
      rw [List.find?_cons, List.find?_cons, same row other here]
      cases wanted row with
      | true => exact .some here
      | false => exact inductionHypothesis

/-- `Meta` answers the same from both. -/
theorem metadata_redacts
    {store other : OpenStore}
    (redacts : store.Redacts other)
    {env : Env}
    (together : env.fails other.db .readMetadata =
      env.fails store.db .readMetadata)
    (code : Bytes) :
    metadata other.options env code other.db =
      metadata store.options env code store.db := by
  have wanted : ∀ row redacted : Row, row.Redacts redacted →
      (redacted.code == code && visible other.options env.now redacted) =
        (row.code == code && visible store.options env.now row) := by
    intro row redacted isRedacted
    rw [isRedacted]
    simp only [visible, redacts.ttlAccess, redacts.ttlCreate]
  have found : Option.Rel Row.Redacts (select store.options env.now code store.db)
      (select other.options env.now code other.db) :=
    find?_redacts wanted redacts.rows
  unfold metadata readRow
  rw [together]
  generalize select store.options env.now code store.db = row at found ⊢
  generalize select other.options env.now code other.db = redacted at found ⊢
  cases found with
  | none => rfl
  | some isRedacted =>
      rw [isRedacted]
      rfl

end Store

namespace HttpApi

open Go

end HttpApi
end Haste
