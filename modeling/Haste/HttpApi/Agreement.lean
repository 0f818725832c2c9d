import Haste.HttpApi.Decoding
import Haste.HttpApi.Envelope
import Haste.Store.WriteOnce

/-!
# What the routes say of one paste

Content enters as the text of a literal or as raw bytes, and leaves as bytes or
as a literal again.  The raw route and the download send what was stored.  A
client that decodes one of the JSON routes gets it with each invalid byte
replaced, so the routes agree exactly on valid text.
-/

namespace Haste
namespace HttpApi

open Go

/-- `handleCreate`, once the paste is stored. -/
def handleCreate
    (config : Config)
    (texts : Texts)
    (request : Incoming)
    (paste : Store.Paste)
    (content : Bytes) : Response :=
  let response := describe texts (baseURL config request) paste content
  writeJSON (Header.empty.set "Location" response.url) 201 (response.encode texts)

/-- `handleLegacyRead`: `Encode` sorts the keys of a map. -/
def handleLegacyRead (paste : Store.Paste) (content : Bytes) : Response :=
  writeJSON (noIndex Header.empty) 200
    (some (object [field "data" (quote content), field "key" (quote paste.code)]))

/-- What `encoding/json` documents of the texts: a ratio is written as a number,
and an instant that can be written as a string. -/
structure Texts.Documented (texts : Texts) : Prop where
  ratio : ∀ raw stored, readNumber (texts.ratio raw stored) =
    some (texts.ratio raw stored, [])
  time : ∀ instant text, texts.time instant = some text →
    ∃ written, text = quote written

/-- The instants of a paste can be written. -/
def Texts.Writes (texts : Texts) (paste : Store.Paste) : Prop :=
  (texts.time paste.createdAt).isSome = true ∧
    ∀ expires ∈ paste.expiresAt, (texts.time expires).isSome = true

/-! ## The JSON routes -/

/-- The fields of a response, given the texts of its instants. -/
def PasteResponse.fields
    (response : PasteResponse)
    (createdAt : Bytes)
    (expiresAt : List Bytes) : List Bytes :=
  [field "key" (quote response.key),
    field "url" (quote response.url),
    field "rawUrl" (quote response.rawURL),
    field "downloadUrl" (quote response.downloadURL),
    field "filename" (quote response.filename)] ++
    optionalField "language" response.language ++
    optionalField "title" response.title ++
    optionalField "content" response.content ++
    [field "chars" (number response.chars),
      field "bytes" (number response.bytes),
      field "stored" (number response.stored),
      field "ratio" response.ratio,
      field "createdAt" createdAt] ++ expiresAt

/-- The field of the expiry, if there is one that can be written. -/
def PasteResponse.expiry (texts : Texts) (response : PasteResponse) :
    Option (List Bytes) :=
  match response.expiresAt with
  | none => some []
  | some expiresAt =>
      (texts.time expiresAt).map fun text => [field "expiresAt" text]

theorem PasteResponse.encode_eq (texts : Texts) (response : PasteResponse) :
    response.encode texts = (texts.time response.createdAt).bind fun createdAt =>
      (response.expiry texts).map fun expiresAt =>
        object (response.fields createdAt expiresAt) := by
  unfold PasteResponse.encode PasteResponse.expiry
  cases texts.time response.createdAt with
  | none => rfl
  | some createdAt =>
      cases response.expiresAt with
      | none => rfl
      | some expiresAt =>
          cases written : texts.time expiresAt with
          | none => simp [written]
          | some text => simp [written, PasteResponse.fields]

/-- A response can be written when its instants can. -/
theorem PasteResponse.isSome_encode (texts : Texts) (response : PasteResponse) :
    (response.encode texts).isSome = true ↔
      (texts.time response.createdAt).isSome = true ∧
        ∀ expires ∈ response.expiresAt, (texts.time expires).isSome = true := by
  rw [response.encode_eq, PasteResponse.expiry]
  cases texts.time response.createdAt with
  | none => simp
  | some createdAt =>
      cases response.expiresAt with
      | none => simp
      | some expiresAt => simp

namespace Member

/-- A member that holds an integer. -/
def integer
    (name : String)
    (value : Int)
    (valid : validString (ascii name) = true) : Member where
  name := name
  text := number value
  value := .number (number value)
  written := isWritten_number (readNumber_toString value)
  valid := valid

/-- A string member that is omitted when it is empty. -/
def optional
    (name : String)
    (text : Bytes)
    (valid : validString (ascii name) = true) : List Member :=
  if text = [] then [] else [string name text valid]

theorem map_field_optional
    (name : String)
    (text : Bytes)
    (valid : validString (ascii name) = true) :
    (optional name text valid).map field = optionalField name text := by
  unfold optional optionalField
  split <;> rfl

end Member

section Encoding

variable {texts : Texts} (documented : texts.Documented)
include documented

/-- The ratio as it is written is a number. -/
theorem readNumber_ratio (base : Bytes) (paste : Store.Paste) (content : Bytes) :
    let ratio := (describe texts base paste content).ratio
    readNumber ratio = some (ratio, []) := by
  simp only [describe]
  split
  · exact documented.ratio _ _
  · decide

/-- The last member of a response, if there is one. -/
theorem exists_expiresAt
    {response : PasteResponse}
    {written : List Bytes}
    (encoded : response.expiry texts = some written) :
    ∃ members : List Member, members.map Member.field = written ∧
      ∀ member ∈ members, member.name = "expiresAt" := by
  unfold PasteResponse.expiry at encoded
  cases expires : response.expiresAt with
  | none =>
      rw [expires] at encoded
      cases encoded
      exact ⟨[], rfl, by simp⟩
  | some instant =>
      rw [expires] at encoded
      obtain ⟨text, isText, rfl⟩ := Option.map_eq_some_iff.mp encoded
      obtain ⟨quoted, rfl⟩ := documented.time instant text isText
      exact ⟨[.string "expiresAt" quoted (by decide)], rfl, by simp [Member.string]⟩

/-- A response that can be written holds its content as a literal. -/
theorem stringMember_encode
    {response : PasteResponse}
    {body : Bytes}
    (isNumber : readNumber response.ratio = some (response.ratio, []))
    (nonempty : response.content ≠ [])
    (encoded : response.encode texts = some body) :
    stringMember (ascii "content") body = some (reencode response.content) := by
  rw [response.encode_eq, Option.bind_eq_some_iff] at encoded
  obtain ⟨createdAt, isCreated, encoded⟩ := encoded
  obtain ⟨expiresAt, isExpires, rfl⟩ := Option.map_eq_some_iff.mp encoded
  obtain ⟨created, rfl⟩ := documented.time _ _ isCreated
  obtain ⟨last, rfl, lastNamed⟩ := exists_expiresAt documented isExpires
  let ratio : Member := {
    name := "ratio"
    text := response.ratio
    value := .number response.ratio
    written := isWritten_number isNumber
    valid := by decide }
  let content : Member := .string "content" response.content (by decide)
  let before : List Member :=
    [.string "url" response.url (by decide),
      .string "rawUrl" response.rawURL (by decide),
      .string "downloadUrl" response.downloadURL (by decide),
      .string "filename" response.filename (by decide)] ++
      Member.optional "language" response.language (by decide) ++
      Member.optional "title" response.title (by decide)
  let after : List Member :=
    [.integer "chars" response.chars (by decide),
      .integer "bytes" response.bytes (by decide),
      .integer "stored" response.stored (by decide), ratio,
      .string "createdAt" created (by decide)] ++ last
  have fields : response.fields (quote created) (last.map Member.field) =
      (Member.string "key" response.key (by decide) ::
        (before ++ content :: after)).map Member.field := by
    have present : optionalField "content" response.content = [content.field] :=
      if_neg nonempty
    simp only [before, after, PasteResponse.fields, present, List.map_cons,
      List.map_append, Member.map_field_optional, List.cons_append,
      List.nil_append, List.append_assoc]
    rfl
  rw [fields]
  apply Member.stringMember_object
  · exact ⟨content, by simp, rfl⟩
  · have named : ∀ (name : String) (text : Bytes)
        (valid : validString (ascii name) = true), ascii name ≠ ascii "content" →
        ∀ member ∈ Member.optional name text valid,
          ascii member.name ≠ ascii "content" := by
      intro name text valid other member listed
      unfold Member.optional at listed
      split at listed
      · cases listed
      · rw [List.mem_singleton.mp listed]
        exact other
    have beforeNamed : ∀ member ∈ before, ascii member.name ≠ ascii "content" := by
      simp only [before, List.forall_mem_append, List.forall_mem_cons,
        Member.string]
      refine ⟨⟨⟨by decide, by decide, by decide, by decide, by simp⟩, ?_⟩, ?_⟩
      · exact named _ _ _ (by decide)
      · exact named _ _ _ (by decide)
    have afterNamed : ∀ member ∈ after, ascii member.name ≠ ascii "content" := by
      simp only [after, List.forall_mem_append, List.forall_mem_cons,
        Member.string, Member.integer, ratio]
      refine ⟨⟨by decide, by decide, by decide, by decide, by decide, by simp⟩, ?_⟩
      intro member listed
      rw [lastNamed member listed]
      decide
    intro member listed isContent
    rcases List.mem_cons.mp listed with rfl | others
    · have isOther : ascii "key" ≠ ascii "content" := by decide
      exact absurd isContent isOther
    · rcases List.mem_append.mp others with isBefore | rest
      · exact absurd isContent (beforeNamed member isBefore)
      · rcases List.mem_cons.mp rest with rfl | isAfter
        · rfl
        · exact absurd isContent (afterNamed member isAfter)

/-- What a client decodes from the response of a route that answers `describe`. -/
theorem stringMember_described
    {base : Bytes}
    {paste : Store.Paste}
    {content : Bytes}
    (nonempty : content ≠ [])
    (header : Header)
    (status : Nat)
    (decoded : Bytes) :
    stringMember (ascii "content") (writeJSON header status
        ((describe texts base paste content).encode texts)).body = some decoded ↔
      texts.Writes paste ∧ reencode content = decoded := by
  have writes : ((describe texts base paste content).encode texts).isSome = true ↔
      texts.Writes paste := PasteResponse.isSome_encode texts _
  cases encoded : (describe texts base paste content).encode texts with
  | none =>
      rw [encoded] at writes
      have nothing : stringMember (ascii "content") [] = none := by decide
      refine iff_of_false ?_ fun holds => by cases writes.mpr holds.1
      change stringMember (ascii "content") [] ≠ some decoded
      rw [nothing]
      exact (Option.some_ne_none decoded).symm
  | some body =>
      rw [encoded] at writes
      have found := stringMember_encode documented
        (readNumber_ratio documented base paste content) nonempty encoded
      change stringMember (ascii "content") body = some decoded ↔ _
      rw [found, Option.some.injEq]
      exact (and_iff_right (writes.mp rfl)).symm

end Encoding

/-- The legacy route has no instants, so it is always written. -/
theorem stringMember_handleLegacyRead (paste : Store.Paste) (content : Bytes) :
    stringMember (ascii "data") (handleLegacyRead paste content).body =
      some (reencode content) := by
  have members : [field "data" (quote content), field "key" (quote paste.code)] =
      [Member.string "data" content (by decide),
        Member.string "key" paste.code (by decide)].map Member.field := rfl
  have body : (handleLegacyRead paste content).body =
      object [field "data" (quote content), field "key" (quote paste.code)] := rfl
  rw [body, members]
  apply Member.stringMember_object
  · exact ⟨_, List.mem_cons_self, rfl⟩
  · simp only [List.forall_mem_cons, Member.string]
    exact ⟨fun _ => trivial, fun same => absurd same (by decide), by simp⟩

/-! ## All routes -/

/-- The routes agree on this content: what they serve of a paste, and the response
to its creation. -/
structure Agree
    (config : Config)
    (texts : Texts)
    (creating reading : Incoming)
    (now : Int)
    (paste found : Store.Paste)
    (content served : Bytes) : Prop where
  raw : (handleRaw now found served).body = content
  download : (handleDownload now found served).body = content
  read : stringMember (ascii "content")
    (handleRead config texts now reading found served).body = some content
  legacy : stringMember (ascii "data") (handleLegacyRead found served).body =
    some content
  created : stringMember (ascii "content")
    (handleCreate config texts creating paste content).body = some content

/-- The content of a paste has at least one character. -/
theorem content_ne_nil
    {options : Store.Options}
    {request : Store.Request}
    {title : Bytes}
    (accepted : Store.checkRequest options request = .ok title) :
    request.content ≠ [] := by
  rintro empty
  unfold Store.checkRequest at accepted
  rw [empty] at accepted
  cases accepted

/-- A decoded body is valid text: an envelope always, a raw body where it was. -/
theorem reencode_eq_iff_of_decodeBody
    {contentType body : Bytes}
    {envelope : CreateRequest}
    (decoded : decodeBody unmarshal contentType body = some envelope) :
    reencode envelope.content = envelope.content ↔
      isJSON contentType = true ∨ validString body = true := by
  unfold decodeBody at decoded
  split at decoded
  case isTrue json =>
    exact iff_of_true (reencode_of_unescape (unescape_contentLiteral decoded))
      (Or.inl json)
  case isFalse raw =>
    cases decoded
    rw [reencode_eq_iff]
    exact (or_iff_right raw).symm

/-- What an accepted request has stored. -/
theorem create_eq_ok
    {unmarshal : Bytes → Option CreateRequest}
    {options : Store.Options}
    {request : Request}
    {body content : Bytes}
    {envelope : CreateRequest}
    {env : Store.Env}
    {db next : Store.Database}
    {paste : Store.Paste}
    (read : request.body = .ok body)
    (decoded : decodeBody unmarshal request.contentType body = some envelope)
    (accepted : create unmarshal options request env db =
      (.ok (paste, content), next)) :
    content = envelope.content ∧
      Store.create options env envelope.toStore db = (.ok paste, next) := by
  unfold create at accepted
  rw [read] at accepted
  split at accepted
  · cases accepted
  · simp only at accepted
    split at accepted
    · cases accepted
    · rw [decoded] at accepted
      simp only at accepted
      split at accepted
      case h_1 stored =>
        cases accepted
        exact ⟨rfl, stored⟩
      case h_2 => cases accepted

/-- The instants of a paste created now with this lifetime can be written. -/
def Texts.WritesFrom (texts : Texts) (now ttl : Int) : Prop :=
  (texts.time (truncateToSecond now)).isSome = true ∧
    (0 < ttl → (texts.time (truncateToSecond now + ttl)).isSome = true)

theorem writes_iff
    {texts : Texts}
    {options : Store.Options}
    {env : Store.Env}
    {request : Store.Request}
    {db next : Store.Database}
    {paste : Store.Paste}
    (created : Store.Created options env request db paste next) :
    texts.Writes paste ↔ texts.WritesFrom env.now request.ttl := by
  unfold Texts.Writes Texts.WritesFrom
  rw [created.metadata]
  simp only [Store.draft]
  by_cases expiring : 0 < request.ttl
  · simp [expiring]
  · simp [expiring]

/-- **One content on every route.**  A request is accepted; later the paste is
served.  The raw route and the download send the content as it was submitted.
They agree with the content that clients decode from the JSON routes and from the
response to the creation exactly when the request was a JSON envelope or its raw
body was valid UTF-8, provided the instants of the paste can be written at all. -/
theorem routes_agree_iff
    {file : Store.File}
    {last : Option Store.Options}
    {before : List Store.Op}
    {store : Store.OpenStore}
    (reached : (Store.System.closed file last).run before = .opened store)
    (inverts : store.options.codec.zstd.Inverts)
    {texts : Texts}
    (documented : texts.Documented)
    {request : Request}
    {body content : Bytes}
    {envelope : CreateRequest}
    (read : request.body = .ok body)
    (decoded : decodeBody unmarshal request.contentType body = some envelope)
    {env : Store.Env}
    {paste : Store.Paste}
    {db : Store.Database}
    (accepted : create unmarshal store.options request env store.db =
      (.ok (paste, content), db))
    {after : List Store.Op}
    (reopens : Foundation.Runs.Each Store.System.step
      (Store.System.ReopensWith Store.Options.KeepsPastes)
      (.opened { store with db }) after)
    {now : Store.Env}
    {found : Store.Paste}
    {served : Bytes}
    (got : ((Store.System.opened { store with db }).run after).answer
      (.get now paste.code) = .got found served)
    (config : Config)
    (creating reading : Incoming)
    (instant : Int) :
    (handleRaw instant found served).body = content ∧
    (handleDownload instant found served).body = content ∧
    (isJSON request.contentType = false → content = body) ∧
    (Agree config texts creating reading instant paste found content served ↔
      (isJSON request.contentType = true ∨ validString body = true) ∧
        texts.WritesFrom env.now (lifetime envelope.expiresIn)) := by
  obtain ⟨rfl, stored⟩ := create_eq_ok read decoded accepted
  have sound : (Store.System.opened store).Sound :=
    Store.System.accounted_of_run (Store.System.sound_closed file last) reached
  have answered : (Store.System.opened store).answer
      (.create env envelope.toStore) = .created paste := by
    simp [Store.System.answer, Store.System.perform, Store.System.onStore,
      Store.OpenStore.create, stored]
  have stepped : (Store.System.opened store).step (.create env envelope.toStore) =
      .opened { store with db } := by
    simp [Store.System.step, Store.System.perform, Store.System.onStore,
      Store.OpenStore.create, stored]
  obtain ⟨same, next, isSame, isNext, created⟩ :=
    Store.System.created_of_answer sound answered
  cases isSame
  obtain rfl : next = db := by
    rw [stepped] at isNext
    cases isNext
    rfl
  have nextSound := (Store.System.step_spec sound
    (.create env envelope.toStore)).1
  rw [stepped] at nextSound
  obtain ⟨current, isCurrent, readBack⟩ := Store.System.got_of_answer got
  obtain ⟨keeps, preserves⟩ := Store.System.preserves_run nextSound
    ⟨store.options, rfl, rfl, rfl, rfl⟩ created.allocated created.preserves
    reopens isCurrent
  obtain ⟨rfl, isContent, -⟩ := created.get_eq preserves inverts keeps readBack
  obtain rfl : served = envelope.content := isContent
  have nonempty : envelope.content ≠ [] := content_ne_nil created.accepted
  refine ⟨rfl, rfl, ?_, ?_⟩
  · intro raw
    unfold decodeBody at decoded
    rw [raw] at decoded
    cases decoded
    rfl
  · rw [← reencode_eq_iff_of_decodeBody decoded]
    have writes : texts.Writes found ↔ texts.WritesFrom env.now
        (lifetime envelope.expiresIn) := writes_iff created
    constructor
    · intro agree
      obtain ⟨written, same⟩ :=
        (stringMember_described documented nonempty _ _ _).mp agree.read
      exact ⟨same, writes.mp written⟩
    · rintro ⟨same, clock⟩
      have written := writes.mpr clock
      exact {
        raw := rfl
        download := rfl
        read := (stringMember_described documented nonempty _ _ _).mpr
          ⟨written, same⟩
        legacy := (stringMember_handleLegacyRead _ _).trans (congrArg some same)
        created := (stringMember_described documented nonempty _ _ _).mpr
          ⟨written, same⟩ }

theorem Texts.small_documented : Texts.small.Documented where
  ratio _ _ :=
    (by decide : readNumber (ascii "0.1") = some (ascii "0.1", []))
  time _ text written := by
    cases written
    exact ⟨ascii "1970-01-01T00:01:40Z", by decide⟩

/-- A request whose body is the paste itself. -/
def rawRequest (body : Bytes) : Request where
  allowed := true
  body := .ok body
  query := []
  contentType := ascii "application/octet-stream"

/-- A letter that is no ASCII agrees on every route. -/
theorem routes_agree_small :
    let store := Store.System.openedFresh Store.Options.small
    ∃ paste db,
      create unmarshal store.options (rawRequest [0xC3, 0xA9]) (.calm 0) store.db =
        (.ok (paste, [0xC3, 0xA9]), db) ∧
      (Store.System.opened { store with db }).answer (.get (.calm 0) paste.code) =
        .got paste [0xC3, 0xA9] ∧
      Agree .unset .small .first .first 0 paste paste [0xC3, 0xA9]
        [0xC3, 0xA9] := by
  intro store
  obtain ⟨db, isDb, accepted⟩ : ∃ db,
      db = (create unmarshal store.options (rawRequest [0xC3, 0xA9]) (.calm 0)
        store.db).2 ∧
      create unmarshal store.options (rawRequest [0xC3, 0xA9]) (.calm 0)
        store.db = (.ok (⟨1, ascii "0", [], [], 1, 2, 11, 0, none⟩,
          [0xC3, 0xA9]), db) :=
    ⟨_, rfl, Prod.ext (by decide +kernel) rfl⟩
  have got : (Store.System.opened { store with db }).answer
      (.get (.calm 0) (ascii "0")) =
        .got ⟨1, ascii "0", [], [], 1, 2, 11, 0, none⟩ [0xC3, 0xA9] := by
    rw [isDb]
    decide +kernel
  have reopens : Foundation.Runs.Each Store.System.step
      (Store.System.ReopensWith Store.Options.KeepsPastes)
      (.opened { store with db }) [] := trivial
  have spec := routes_agree_iff (Store.System.run_openFresh Store.Options.small)
    Compress.rawFrames_inverts Texts.small_documented rfl rfl accepted reopens got
    .unset .first .first 0
  exact ⟨_, db, accepted, got, spec.2.2.2.mpr
    ⟨Or.inr (by decide), rfl, fun expiring => absurd expiring (by decide)⟩⟩

/-- A byte of no encoding is accepted as a raw body and served as it is by the raw
route, while clients of the JSON routes decode the replacement character. -/
theorem invalid_byte_replaced :
    let store := Store.System.openedFresh Store.Options.small
    ∃ paste db,
      create unmarshal store.options (rawRequest [0xFF]) (.calm 0) store.db =
        (.ok (paste, [0xFF]), db) ∧
      (Store.System.opened { store with db }).answer (.get (.calm 0) paste.code) =
        .got paste [0xFF] ∧
      (handleRaw 0 paste [0xFF]).body = [0xFF] ∧
      stringMember (ascii "content")
        (handleRead .unset .small 0 .first paste [0xFF]).body =
          some [0xEF, 0xBF, 0xBD] ∧
      ¬Agree .unset .small .first .first 0 paste paste [0xFF] [0xFF] := by
  intro store
  obtain ⟨db, isDb, accepted⟩ : ∃ db,
      db = (create unmarshal store.options (rawRequest [0xFF]) (.calm 0)
        store.db).2 ∧
      create unmarshal store.options (rawRequest [0xFF]) (.calm 0) store.db =
        (.ok (⟨1, ascii "0", [], [], 1, 1, 10, 0, none⟩, [0xFF]), db) :=
    ⟨_, rfl, Prod.ext (by decide +kernel) rfl⟩
  have got : (Store.System.opened { store with db }).answer
      (.get (.calm 0) (ascii "0")) =
        .got ⟨1, ascii "0", [], [], 1, 1, 10, 0, none⟩ [0xFF] := by
    rw [isDb]
    decide +kernel
  have replaced : stringMember (ascii "content")
      (handleRead .unset .small 0 .first ⟨1, ascii "0", [], [], 1, 1, 10, 0, none⟩
        [0xFF]).body = some [0xEF, 0xBF, 0xBD] := by
    decide +kernel
  refine ⟨_, db, accepted, got, rfl, replaced, fun agree => ?_⟩
  have same := agree.read
  rw [replaced] at same
  exact absurd same (by decide)

end HttpApi
end Haste
