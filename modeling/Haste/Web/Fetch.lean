import Haste.HttpApi.Links
import Haste.Web.PastePage

/-!
# What the page fetches

The page asks for a code by its path below the API, escaped as one segment.  The
mux unescapes it to the same code, so the reply is what `Get` answers for it: a
document with this key and the content that was found, or an error.
-/

namespace Haste
namespace Web

open Go
open Foundation
open HttpApi

/-! ## The path of a request -/

/-- A byte that `encodeURIComponent` leaves as it is: a letter, a digit, or one of
nine marks. -/
def isUnescaped (byte : UInt8) : Bool :=
  (0x30 ≤ byte && byte ≤ 0x39) || (0x41 ≤ byte && byte ≤ 0x5A) ||
    (0x61 ≤ byte && byte ≤ 0x7A) ||
    [0x2D, 0x5F, 0x2E, 0x21, 0x7E, 0x2A, 0x27, 0x28, 0x29].contains byte

/-- A digit of an escape. -/
def upperDigit (value : Nat) : UInt8 :=
  (ascii "0123456789ABCDEF").getD value 0x30

/-- A byte, escaped if it has to be. -/
def escapeByte (byte : UInt8) : Bytes :=
  if isUnescaped byte then [byte]
  else [0x25, upperDigit (byte.toNat / 16), upperDigit (byte.toNat % 16)]

/-- `encodeURIComponent` of the UTF-8 of a text. -/
def encodeURIComponent (text : Bytes) : Bytes := text.flatMap escapeByte

/-- The path that `fetchPaste` requests. -/
def fetchPath (key : Bytes) : Bytes := Link.read.path (encodeURIComponent key)

example : fetchPath (ascii "a/b") = ascii "/api/pastes/a%2Fb" := by decide +kernel

theorem hexValue_upperDigit :
    ∀ value < 16, hexValue (upperDigit value) = some value := by
  decide

theorem pathStep_escapeByte (byte : UInt8) (rest : Bytes) :
    pathStep (escapeByte byte ++ rest) = some (byte, (escapeByte byte).length) := by
  unfold escapeByte
  split
  case isTrue unescaped =>
    refine pathStep_of_ne ?_ rest
    rintro rfl
    exact absurd unescaped (by decide)
  case isFalse =>
    have width := byte.toNat_lt
    have high := hexValue_upperDigit (byte.toNat / 16) (by omega)
    have low := hexValue_upperDigit (byte.toNat % 16) (by omega)
    have value : (byte.toNat / 16 * 16 + byte.toNat % 16).toUInt8 = byte := by
      rw [Nat.div_add_mod']
      exact UInt8.ofNat_toNat
    have read : ∀ first second : UInt8,
        pathStep (0x25 :: first :: second :: rest) =
          (hexValue first).bind fun first =>
            (hexValue second).bind fun second =>
              some ((first * 16 + second).toUInt8, 3) := fun _ _ => rfl
    rw [List.cons_append, List.cons_append, List.singleton_append, read, high,
      Option.bind_some, low, Option.bind_some, value]
    rfl

/-- The server gets back what was escaped. -/
theorem pathUnescape_encodeURIComponent (text : Bytes) :
    pathUnescape (encodeURIComponent text) = some text := by
  have nonempty : ∀ byte, escapeByte byte ≠ [] := by
    intro byte
    unfold escapeByte
    split
    · exact List.cons_ne_nil _ _
    · exact List.cons_ne_nil _ _
  have read : Scanning.scan pathStep (text.flatMap escapeByte) =
      some (text.map id) :=
    Scanning.scan_flatMap (fun byte _ => nonempty byte)
      (fun byte rest _ => pathStep_escapeByte byte _)
  rwa [List.map_id] at read

theorem noSlash_encodeURIComponent (text : Bytes) :
    0x2F ∉ encodeURIComponent text := by
  have digits : ∀ value < 16, upperDigit value ≠ 0x2F := by decide
  rw [encodeURIComponent, List.mem_flatMap]
  rintro ⟨byte, -, listed⟩
  have width := byte.toNat_lt
  unfold escapeByte at listed
  split at listed
  case isTrue unescaped =>
    rw [List.mem_singleton] at listed
    subst listed
    exact absurd unescaped (by decide)
  case isFalse =>
    simp only [List.mem_cons, List.not_mem_nil, or_false] at listed
    rcases listed with mark | high | low
    · exact absurd mark (by decide)
    · exact digits _ (by omega) high.symm
    · exact digits _ (by omega) low.symm

/-- A code that a request can name: the browser takes dots for directories, and
the mux a slash for the end of a path. -/
structure Fetchable (key : Bytes) : Prop where
  names : Names key
  notSlash : key ≠ ascii "/"

theorem fetchable_of_valid {key : Bytes} (valid : Id.valid key = true) :
    Fetchable key where
  names := (plain_of_valid valid).names
  notSlash := code_ne_slash valid

theorem Fetchable.separate {key : Bytes} (fetchable : Fetchable key) :
    Separate (encodeURIComponent key) := by
  have same : ∀ text, encodeURIComponent key = text → 0x25 ∉ text → key = text := by
    intro text isText plain
    have unescaped := pathUnescape_encodeURIComponent key
    rw [isText, pathUnescape_of_notMem plain] at unescaped
    exact (Option.some.inj unescaped).symm
  have named := fetchable.names
  refine ⟨⟨?_, ?_⟩, noSlash_encodeURIComponent key⟩
  · rw [← Bool.not_eq_true]
    intro isStill
    unfold stays at isStill
    rw [Bool.or_eq_true, beq_iff_eq, beq_iff_eq] at isStill
    rcases isStill with empty | dot
    · rw [same _ empty (by decide)] at named
      exact absurd named.1 (by decide)
    · rw [same _ dot (by decide)] at named
      exact absurd named.1 (by decide)
  · intro dots
    rw [same _ dots (by decide)] at named
    exact named.2 rfl

/-- A request of the page reaches the handler that reads, with its code. -/
theorem mux_fetchPath {key : Bytes} (fetchable : Fetchable key) :
    mux (ascii "GET") (fetchPath key) = .handled .read key := by
  have unescaped : muxSegment (encodeURIComponent key) = key := by
    rw [muxSegment, pathUnescape_encodeURIComponent]
    rfl
  have routed := Link.mux_path_read fetchable.separate
    (by rw [unescaped]; exact fetchable.notSlash)
  rwa [unescaped] at routed

/-! ## What a response says -/

/-- A response as `fetch` hands it on. -/
def Reply.ofResponse (encoders : Encoders) (response : Response) : Reply where
  status := response.status
  body := (response.decoded encoders).getD []

/-- The reply that the handler of a code makes of what `Get` has answered. -/
def readReply
    (site : Site)
    (request : HttpRequest)
    (shownAt : Int)
    (key : Bytes)
    (got : Except Store.Error (Store.Paste × Bytes)) : Reply :=
  let written := Route.read.handle site.config site.texts shownAt
    (request.incoming key) got
  ⟨written.status, written.body⟩

/-- A plain request for a code is answered with what `Get` answers. -/
theorem answer_fetch
    {site : Site}
    {server : Server}
    {store : Store.OpenStore}
    {request : HttpRequest}
    {key : Bytes}
    (isOpen : server.system = .opened store)
    (fetchable : Fetchable key)
    (isGet : request.method = ascii "GET")
    (isPath : request.escapedPath = fetchPath key)
    (unconditional : request.header.get "If-None-Match" = [])
    (occasion : Occasion) :
    ∃ response, server.answer site request occasion = some response ∧
      Reply.ofResponse site.encoders response =
        readReply site request occasion.shownAt key
          (Server.found store occasion key) := by
  have routed : mux request.method request.escapedPath = .handled .read key := by
    rw [isGet, isPath]
    exact mux_fetchPath fetchable
  refine ⟨_, Server.answer_handled isOpen (by rw [isGet]; decide)
    (by rw [isGet]; decide) routed, ?_⟩
  have notHead : (request.incoming key).method ≠ ascii "HEAD" := by
    change request.method ≠ _
    rw [isGet]
    decide
  let written := Route.read.handle site.config site.texts occasion.shownAt
    (request.incoming key) (Server.found store occasion key)
  have sent : written.status ≠ 0 := by
    change (Route.read.handle site.config site.texts occasion.shownAt
      (request.incoming key) (Server.found store occasion key)).status ≠ 0
    cases Server.found store occasion key with
    | error error =>
        have status := fail_status error
        have same : (Route.read.handle site.config site.texts occasion.shownAt
            (request.incoming key) (.error error)).status =
              (fail error).status := rfl
        omega
    | ok found =>
        have status := (Route.read.handle_ok site.config site.texts
          occasion.shownAt (request.incoming key) found.1 found.2).1
        rw [status]
        decide
  obtain ⟨isStatus, isBody⟩ : (buffered site.encoders (outerHeader site request)
      (request.incoming key) written).Shows site.encoders
        (written.status, written.body) :=
    buffered_shows (outerHeader_unset (by decide) site request)
      (Route.handle_unset (by decide) _ _ _ _ _ _)
      (not_revalidates_of_unconditional unconditional) notHead sent
  have isReply : Reply.ofResponse site.encoders (buffered site.encoders
      (outerHeader site request) (request.incoming key) written) =
        ⟨written.status, written.body⟩ := by
    rw [Reply.ofResponse, isStatus, isBody]
    rfl
  exact isReply

/-- The key of a paste is written first, and no other member has its name. -/
theorem stringMember_key
    {texts : Texts}
    (documented : texts.Documented)
    {response : PasteResponse}
    {body : Bytes}
    (isNumber : readNumber response.ratio = some (response.ratio, []))
    (encoded : response.encode texts = some body) :
    stringMember (ascii "key") body = some (reencode response.key) := by
  rw [response.encode_eq, Option.bind_eq_some_iff] at encoded
  obtain ⟨createdAt, isCreated, encoded⟩ := encoded
  obtain ⟨expiresAt, isExpires, rfl⟩ := Option.map_eq_some_iff.mp encoded
  obtain ⟨created, rfl⟩ := documented.time _ _ isCreated
  obtain ⟨last, rfl, lastNamed⟩ := exists_expiresAt documented isExpires
  let ratio : Member := {
    name := "ratio"
    text := response.ratio
    value := .number response.ratio
    written := isWritten_number isNumber
    valid := by decide }
  let others : List Member :=
    [.string "url" response.url (by decide),
      .string "rawUrl" response.rawURL (by decide),
      .string "downloadUrl" response.downloadURL (by decide),
      .string "filename" response.filename (by decide)] ++
      Member.optional "language" response.language (by decide) ++
      Member.optional "title" response.title (by decide) ++
      Member.optional "content" response.content (by decide) ++
      [.integer "chars" response.chars (by decide),
        .integer "bytes" response.bytes (by decide),
        .integer "stored" response.stored (by decide), ratio,
        .string "createdAt" created (by decide)] ++ last
  have fields : response.fields (quote created) (last.map Member.field) =
      (Member.string "key" response.key (by decide) :: others).map
        Member.field := by
    simp only [others, PasteResponse.fields, List.map_cons, List.map_append,
      Member.map_field_optional, List.cons_append, List.nil_append,
      List.append_assoc]
    rfl
  have optional : ∀ (name : String) (text : Bytes)
      (valid : validString (ascii name) = true), ascii name ≠ ascii "key" →
      ∀ member ∈ Member.optional name text valid,
        ascii member.name ≠ ascii "key" := by
    intro name text valid other member listed
    unfold Member.optional at listed
    split at listed
    · cases listed
    · rw [List.mem_singleton.mp listed]
      exact other
  have named : ∀ member ∈ others, ascii member.name ≠ ascii "key" := by
    simp only [others, List.forall_mem_append, List.forall_mem_cons,
      Member.string, Member.integer, ratio]
    refine ⟨⟨⟨⟨⟨⟨by decide, by decide, by decide, by decide, by simp⟩, ?_⟩, ?_⟩,
      ?_⟩, ⟨by decide, by decide, by decide, by decide, by decide, by simp⟩⟩, ?_⟩
    · exact optional _ _ _ (by decide)
    · exact optional _ _ _ (by decide)
    · exact optional _ _ _ (by decide)
    · intro member listed
      rw [lastNamed member listed]
      decide
  rw [fields]
  apply Member.stringMember_object
  · exact ⟨_, List.mem_cons_self, rfl⟩
  · intro member listed isKey
    rcases List.mem_cons.mp listed with rfl | isOther
    · rfl
    · exact absurd isKey (named member isOther)

/-- A document that the page accepts says what `Get` has answered. -/
theorem request_readReply
    {site : Site}
    (documented : site.texts.Documented)
    {request : HttpRequest}
    {shownAt : Int}
    {key : Bytes}
    {got : Except Store.Error (Store.Paste × Bytes)}
    {document : Bytes}
    (accepted : Web.request (some (readReply site request shownAt key got)) =
      .ok document) :
    ∃ paste content, got = .ok (paste, content) ∧
      stringMember (ascii "key") document = some (reencode paste.code) ∧
      (content ≠ [] →
        stringMember (ascii "content") document = some (reencode content)) := by
  cases got with
  | error error =>
      have status : 400 ≤ (readReply site request shownAt key
        (.error error)).status := fail_status error
      rw [Web.request, if_neg (by omega)] at accepted
      cases accepted
  | ok found =>
      obtain ⟨paste, content⟩ := found
      refine ⟨paste, content, rfl, ?_⟩
      rw [Web.request] at accepted
      split at accepted
      case isFalse => cases accepted
      case isTrue =>
        split at accepted
        case isFalse => cases accepted
        case isTrue isDocument =>
          cases accepted
          have ratio := readNumber_ratio documented
            (baseURL site.config (request.incoming key)) paste content
          cases encoded : (describe site.texts
              (baseURL site.config (request.incoming key)) paste
              content).encode site.texts with
          | none =>
              have isEmpty : (readReply site request shownAt key
                  (.ok (paste, content))).body = [] := by
                change ((describe site.texts _ paste content).encode
                  site.texts).getD [] = []
                rw [encoded]
                rfl
              rw [isEmpty] at isDocument
              exact absurd isDocument (by decide)
          | some body =>
              have isBody : (readReply site request shownAt key
                  (.ok (paste, content))).body = body := by
                change ((describe site.texts _ paste content).encode
                  site.texts).getD [] = body
                rw [encoded]
                rfl
              rw [isBody]
              exact ⟨stringMember_key documented ratio encoded,
                fun nonempty => stringMember_encode documented ratio nonempty
                  encoded⟩

/-- A code stands in a document as it is. -/
theorem reencode_of_valid {code : Bytes} (valid : Id.valid code = true) :
    reencode code = code := by
  obtain ⟨-, -, base62⟩ := (Id.valid_iff code).mp valid
  have letters : ∀ byte ∈ Id.alphabet, byte < 0x80 := by decide +kernel
  exact reencode_of_ascii fun byte listed => letters byte (base62 byte listed)

/-- What `Get` finds has the code that was asked for. -/
theorem code_of_found
    {store : Store.OpenStore}
    {occasion : Occasion}
    {key content : Bytes}
    {paste : Store.Paste}
    (found : Server.found store occasion key = .ok (paste, content)) :
    Id.valid key = true ∧ paste.code = key := by
  obtain ⟨row, -, sameCode, -, rfl, -⟩ := Store.get_eq_ok found
  refine ⟨?_, sameCode⟩
  by_contra malformed
  rw [Bool.not_eq_true] at malformed
  have missing : Server.found store occasion key = .error .notFound :=
    Store.get_eq_notFound_iff.mpr (Or.inl malformed)
  rw [missing] at found
  cases found

/-- A document that the page accepts has the key that was asked for, and the
content that was found. -/
theorem request_found
    {site : Site}
    (documented : site.texts.Documented)
    {store : Store.OpenStore}
    {occasion : Occasion}
    {request : HttpRequest}
    {shownAt : Int}
    {key document : Bytes}
    (accepted : Web.request (some (readReply site request shownAt key
      (Server.found store occasion key))) = .ok document) :
    stringMember (ascii "key") document = some key ∧
      ∃ paste content, Server.found store occasion key = .ok (paste, content) ∧
        (content ≠ [] →
          stringMember (ascii "content") document = some (reencode content)) := by
  obtain ⟨paste, content, found, isKey, isContent⟩ :=
    request_readReply documented accepted
  obtain ⟨valid, sameCode⟩ := code_of_found found
  rw [sameCode, reencode_of_valid valid] at isKey
  exact ⟨isKey, paste, content, found, isContent⟩

/-- Only a code without a paste is answered 404. -/
theorem got_of_readReply
    {site : Site}
    {request : HttpRequest}
    {shownAt : Int}
    {key : Bytes}
    {got : Except Store.Error (Store.Paste × Bytes)}
    (missing : (readReply site request shownAt key got).status = 404) :
    got = .error .notFound := by
  cases got with
  | error error =>
      change (fail error).status = 404 at missing
      cases error <;> first | rfl | (simp [fail, writeError] at missing)
  | ok found =>
      obtain ⟨paste, content⟩ := found
      have status := (Route.read.handle_ok site.config site.texts shownAt
        (request.incoming key) paste content).1
      change (Route.read.handle site.config site.texts shownAt
        (request.incoming key) (.ok (paste, content))).status = 404 at missing
      rw [status] at missing
      exact absurd missing (by decide)

end Web
end Haste
