import Haste.HttpApi.Read

/-!
# Conditional requests

An entity tag is a quoted string of base64 digits, so the comma-separated
elements of `If-None-Match` can be compared with it one by one, with or without
the mark of a weak tag.  From this follows what `buffered` sends: nothing but
the news that the client is up to date, or the handler's own status and body.
-/

namespace Haste
namespace HttpApi

open Go

/-! ## Entity tags -/

theorem base64URLDigit_mem (value : Nat) :
    base64URLDigit value ∈ base64URLDigits := by
  unfold base64URLDigit
  rw [List.getD_eq_getElem?_getD]
  cases found : base64URLDigits[value]? with
  | none => decide
  | some digit => exact List.mem_of_getElem? found

theorem mem_base64RawURL {bytes : Bytes} :
    ∀ byte ∈ base64RawURL bytes, byte ∈ base64URLDigits := by
  induction bytes using base64RawURL.induct with
  | case1 => simp [base64RawURL]
  | case2 first =>
      simp only [base64RawURL, List.forall_mem_cons, base64URLDigit_mem, true_and]
      simp
  | case3 first second =>
      simp only [base64RawURL, List.forall_mem_cons, base64URLDigit_mem, true_and]
      simp
  | case4 first second third rest inductionHypothesis =>
      simp only [base64RawURL, List.forall_mem_cons, base64URLDigit_mem, true_and]
      exact inductionHypothesis

/-- A quoted string of base64 digits. -/
def IsQuoted (tag : Bytes) : Prop :=
  ∃ digits : Bytes, (∀ byte ∈ digits, byte ∈ base64URLDigits) ∧
    tag = 0x22 :: digits ++ [0x22]

theorem Encoders.etagFor_isQuoted (encoders : Encoders) (body : Bytes) :
    IsQuoted (encoders.etagFor body) :=
  ⟨_, mem_base64RawURL, rfl⟩

theorem base64URLDigits_visible :
    ∀ byte ∈ base64URLDigits, byte < 0x80 ∧ byte ≠ 0x2C := by
  have visible : base64URLDigits.all
      (fun byte => decide (byte < 0x80 ∧ byte ≠ 0x2C)) = true := by
    decide
  intro byte isDigit
  exact of_decide_eq_true (List.all_eq_true.mp visible byte isDigit)

namespace IsQuoted

variable {tag : Bytes}

theorem ascii (quoted : IsQuoted tag) : ∀ byte ∈ tag, byte < 0x80 := by
  obtain ⟨digits, areDigits, rfl⟩ := quoted
  intro byte present
  simp only [List.cons_append, List.mem_cons, List.mem_append,
    List.not_mem_nil, or_false] at present
  rcases present with rfl | isDigit | rfl
  · decide
  · exact (base64URLDigits_visible byte (areDigits byte isDigit)).1
  · decide

/-- No comma separates the parts of a tag. -/
theorem comma_notMem (quoted : IsQuoted tag) : 0x2C ∉ tag := by
  obtain ⟨digits, areDigits, rfl⟩ := quoted
  intro present
  simp only [List.cons_append, List.mem_cons, List.mem_append,
    List.not_mem_nil, or_false] at present
  rcases present with quote | isDigit | quote
  · cases quote
  · exact (base64URLDigits_visible _ (areDigits _ isDigit)).2 rfl
  · cases quote

theorem ne_nil (quoted : IsQuoted tag) : tag ≠ [] := by
  obtain ⟨digits, -, rfl⟩ := quoted
  simp

theorem trimSpace_eq (quoted : IsQuoted tag) : trimSpace tag = tag := by
  have isAscii := quoted.ascii
  obtain ⟨digits, -, rfl⟩ := quoted
  exact trimSpace_of_ascii isAscii (by decide) (by decide)

/-- A tag as it was computed is a strong one. -/
theorem hasPrefix_eq (quoted : IsQuoted tag) :
    hasPrefix tag (Go.ascii "W/") = false := by
  obtain ⟨digits, -, rfl⟩ := quoted
  rfl

theorem trimPrefix_eq (quoted : IsQuoted tag) :
    trimPrefix tag (Go.ascii "W/") = tag := by
  unfold trimPrefix
  rw [quoted.hasPrefix_eq]
  rfl

theorem trimSpace_weak_eq (quoted : IsQuoted tag) :
    trimSpace (Go.ascii "W/" ++ tag) = Go.ascii "W/" ++ tag := by
  have isAscii := quoted.ascii
  obtain ⟨digits, areDigits, rfl⟩ := quoted
  have middle : Go.ascii "W/" ++ (0x22 :: digits ++ [0x22]) =
      0x57 :: (0x2F :: 0x22 :: digits) ++ [0x22] := rfl
  rw [middle]
  refine trimSpace_of_ascii ?_ (by decide) (by decide)
  intro byte present
  rw [← middle, List.mem_append] at present
  rcases present with mark | inTag
  · have isMark : byte = 0x57 ∨ byte = 0x2F := List.mem_pair.mp mark
    rcases isMark with rfl | rfl
    · decide
    · decide
  · exact isAscii byte inTag

theorem trimPrefix_weak_eq (tag : Bytes) :
    trimPrefix (Go.ascii "W/" ++ tag) (Go.ascii "W/") = tag := by
  have marked : hasPrefix (Go.ascii "W/" ++ tag) (Go.ascii "W/") = true := by
    unfold hasPrefix
    rw [List.isPrefixOf_iff_prefix]
    exact List.prefix_append _ _
  unfold trimPrefix
  rw [marked]
  rfl

end IsQuoted

/-! ## If-None-Match -/

/-- Two entity tags are the same but for the mark of a weak one. -/
def WeaklyEqual (left right : Bytes) : Prop :=
  trimPrefix left (ascii "W/") = trimPrefix right (ascii "W/")

/-- A comma-separated list with a star among its elements, or a tag weakly equal
to this one. -/
def ListsTag (value tag : Bytes) : Prop :=
  ∃ elements : List Bytes, elements ≠ [] ∧
    (∀ element ∈ elements, 0x2C ∉ element) ∧
    value = [0x2C].intercalate elements ∧
    ∃ element ∈ elements,
      trimSpace element = ascii "*" ∨ WeaklyEqual (trimSpace element) tag

/-- `etagMatches` reads the list as it is meant. -/
theorem etagMatches_iff
    {value tag : Bytes}
    (quoted : IsQuoted tag) :
    etagMatches value tag = true ↔ ListsTag value tag := by
  have found_iff : ((split value 0x2C).any fun candidate =>
      trimSpace candidate == ascii "*" ||
        trimPrefix (trimSpace candidate) (ascii "W/") ==
          trimPrefix tag (ascii "W/")) = true ↔
      ∃ element ∈ split value 0x2C,
        trimSpace element = ascii "*" ∨ WeaklyEqual (trimSpace element) tag := by
    simp [List.any_eq_true, WeaklyEqual]
  unfold etagMatches
  split
  case isTrue none =>
    -- The one element of an empty list is empty, which no tag is.
    subst none
    simp only [Bool.false_eq_true, false_iff]
    rintro ⟨elements, some, free, joined, element, listed, matched⟩
    have parts : split [] 0x2C = elements := by
      rw [joined]
      exact List.splitOn_intercalate _ free some
    rw [← parts] at listed
    rw [List.mem_singleton.mp listed] at matched
    rcases matched with star | equal
    · exact absurd star (by decide)
    · rw [WeaklyEqual, quoted.trimPrefix_eq] at equal
      exact quoted.ne_nil equal.symm
  case isFalse =>
    rw [found_iff]
    constructor
    · rintro ⟨element, listed, matched⟩
      exact ⟨split value 0x2C, List.splitOn_ne_nil _ _,
        fun _ isPart => notMem_of_mem_split isPart,
        (List.intercalate_splitOn _).symm, element, listed, matched⟩
    · rintro ⟨elements, some, free, rfl, element, listed, matched⟩
      refine ⟨element, ?_, matched⟩
      rw [split, List.splitOn_intercalate _ free some]
      exact listed

/-- A tag as a client has received it, with or without the mark of a weak
one. -/
def IsReceived (received tag : Bytes) : Prop :=
  received = tag ∨ received = ascii "W/" ++ tag

namespace IsReceived

variable {received tag : Bytes}

theorem comma_notMem
    (isReceived : IsReceived received tag)
    (quoted : IsQuoted tag) :
    0x2C ∉ received := by
  rcases isReceived with rfl | rfl
  · exact quoted.comma_notMem
  · rw [List.mem_append, not_or]
    exact ⟨by decide, quoted.comma_notMem⟩

theorem trimSpace_eq
    (isReceived : IsReceived received tag)
    (quoted : IsQuoted tag) :
    trimSpace received = received := by
  rcases isReceived with rfl | rfl
  · exact quoted.trimSpace_eq
  · exact quoted.trimSpace_weak_eq

theorem trimPrefix_eq
    (isReceived : IsReceived received tag)
    (quoted : IsQuoted tag) :
    trimPrefix received (ascii "W/") = tag := by
  rcases isReceived with rfl | rfl
  · exact quoted.trimPrefix_eq
  · exact IsQuoted.trimPrefix_weak_eq tag

theorem ne_star
    (isReceived : IsReceived received tag)
    (quoted : IsQuoted tag) :
    received ≠ ascii "*" := by
  obtain ⟨digits, -, isTag⟩ := quoted
  rcases isReceived with same | weak
  · rw [same, isTag]
    exact fun star => absurd (List.cons.inj star).1 (by decide)
  · rw [weak]
    exact fun star => absurd (List.cons.inj star).1 (by decide)

/-- A received tag alone is a list that names its tag and no other one. -/
theorem listsTag_iff
    {other : Bytes}
    (isReceived : IsReceived received tag)
    (quoted : IsQuoted tag)
    (otherQuoted : IsQuoted other) :
    ListsTag received other ↔ tag = other := by
  have free := isReceived.comma_notMem quoted
  constructor
  · rintro ⟨elements, some, elementsFree, joined, element, listed, matched⟩
    have parts : elements = [received] := by
      rw [← List.splitOn_intercalate 0x2C elementsFree some, ← joined]
      exact List.splitOn_eq_singleton free
    rw [parts, List.mem_singleton] at listed
    rw [listed, isReceived.trimSpace_eq quoted] at matched
    rcases matched with star | equal
    · exact absurd star (isReceived.ne_star quoted)
    · rwa [WeaklyEqual, isReceived.trimPrefix_eq quoted,
        otherQuoted.trimPrefix_eq] at equal
  · rintro rfl
    refine ⟨[received], by simp, ?_, by simp, received, by simp, Or.inr ?_⟩
    · intro element isOnly
      rw [List.mem_singleton.mp isOnly]
      exact free
    · rw [WeaklyEqual, isReceived.trimSpace_eq quoted,
        isReceived.trimPrefix_eq quoted, quoted.trimPrefix_eq]

end IsReceived

/-! ## What is sent -/

/-- A read whose client is up to date. -/
def Revalidates
    (encoders : Encoders)
    (request : Incoming)
    (output : Response) : Prop :=
  (request.method = ascii "GET" ∨ request.method = ascii "HEAD") ∧
    output.sentStatus = 200 ∧
    ListsTag (request.header.get "If-None-Match") (encoders.etagFor output.body)

/-- A body decoded by its `Content-Encoding`. -/
def Response.decoded (encoders : Encoders) (response : Response) : Option Bytes :=
  if response.header.values "Content-Encoding" = [] then some response.body
  else if response.header.values "Content-Encoding" = [ascii "gzip"] then
    encoders.gunzip response.body
  else none

section

variable (encoders : Encoders) (outer : Header) (request : Incoming)
  (output : Response)

theorem isRead_iff :
    request.isRead = true ↔
      request.method = ascii "GET" ∨ request.method = ascii "HEAD" := by
  simp [Incoming.isRead]

/-- The header before compression: what the layers around have set, the
handler's own fields, and the tag of a read. -/
def taggedHeader : Header :=
  if output.sentStatus = 200 ∧ request.isRead = true then
    (outer.merge output.header).set "Etag" (encoders.etagFor output.body)
  else outer.merge output.header

variable {encoders outer request output}

/-- A client that is up to date is told so. -/
theorem buffered_of_revalidates
    (revalidates : Revalidates encoders request output) :
    buffered encoders outer request output =
      { status := 304
        header := ((taggedHeader encoders outer request output).del
          "Content-Type").del "Content-Length"
        body := [] } := by
  obtain ⟨isRead, ok, lists⟩ := revalidates
  have taggable : output.sentStatus = 200 ∧ request.isRead = true :=
    ⟨ok, (isRead_iff request).mpr isRead⟩
  have matched := (etagMatches_iff (encoders.etagFor_isQuoted output.body)).mpr
    lists
  simp only [buffered, taggedHeader, if_pos taggable, if_pos matched]

/-- Every other request is sent the handler's own response. -/
theorem buffered_of_not_revalidates
    (fresh : ¬Revalidates encoders request output) :
    buffered encoders outer request output =
      respond encoders request output.sentStatus
        (taggedHeader encoders outer request output) output.body := by
  unfold buffered taggedHeader
  by_cases taggable : output.sentStatus = 200 ∧ request.isRead = true
  · have unmatched : ¬etagMatches (request.header.get "If-None-Match")
        (encoders.etagFor output.body) = true := by
      rw [etagMatches_iff (encoders.etagFor_isQuoted output.body)]
      intro lists
      exact fresh ⟨(isRead_iff request).mp taggable.2, taggable.1, lists⟩
    simp only [if_pos taggable, if_neg unmatched]
  · simp only [if_neg taggable]

/-- A body is left as it is, or compressed with a header that says so. -/
theorem gzipped_eq
    (encoders : Encoders)
    (request : Incoming)
    (header : Header)
    (body : Bytes) :
    encoders.gzipped request header body =
        (header.add "Vary" (ascii "Accept-Encoding"), none) ∨
      encoders.gzipped request header body =
        (Encoders.gzipHeader (header.add "Vary" (ascii "Accept-Encoding")),
          some (encoders.gzip body)) := by
  simp only [Encoders.gzipped]
  split
  case isTrue => exact Or.inl rfl
  case isFalse =>
    split
    case isTrue => exact Or.inl rfl
    case isFalse => exact Or.inr rfl

theorem gzipHeader_encoding (header : Header) :
    (Encoders.gzipHeader header).values "Content-Encoding" = [ascii "gzip"] := by
  simp only [Encoders.gzipHeader]
  split <;> simp

theorem gzipHeader_values_of_ne
    {name : String}
    (notEncoding : name ≠ "Content-Encoding")
    (notTag : name ≠ "Etag")
    (header : Header) :
    (Encoders.gzipHeader header).values name = header.values name := by
  simp only [Encoders.gzipHeader]
  split <;> simp [notEncoding, notTag]

/-- The tag of a compressed body is the weak form of its tag, or weak as it
is. -/
theorem gzipHeader_etag
    {header : Header}
    {tag : Bytes}
    (tagged : header.values "Etag" = [tag]) :
    IsReceived ((Encoders.gzipHeader header).get "Etag") tag := by
  simp only [Encoders.gzipHeader]
  split
  case isTrue => simp [IsReceived, Header.get, tagged]
  case isFalse => simp [IsReceived, Header.get, tagged]

/-- The header of a body says how it was encoded. -/
theorem gzipped_cases
    (encoders : Encoders)
    (request : Incoming)
    {header : Header}
    (plain : header.values "Content-Encoding" = [])
    (body : Bytes) :
    (encoders.gzipped request header body).1.values "Content-Encoding" = [] ∧
        (encoders.gzipped request header body).2 = none ∨
      (encoders.gzipped request header body).1.values "Content-Encoding" =
          [ascii "gzip"] ∧
        (encoders.gzipped request header body).2 = some (encoders.gzip body) := by
  rcases gzipped_eq encoders request header body with same | same
  · rw [same]
    exact Or.inl ⟨by simp [plain], rfl⟩
  · rw [same]
    exact Or.inr ⟨gzipHeader_encoding _, rfl⟩

/-- The body sent to a read that is no `HEAD` decodes to the handler's body. -/
theorem respond_decoded
    {header : Header}
    (plain : header.values "Content-Encoding" = [])
    (notHead : request.method ≠ ascii "HEAD")
    (status : Nat)
    (body : Bytes) :
    (respond encoders request status header body).decoded encoders =
      some body := by
  unfold Response.decoded respond
  rcases gzipped_cases encoders request plain body with
    ⟨identity, none⟩ | ⟨gzip, some⟩
  · simp [identity, none, notHead]
  · simp [gzip, some, notHead, encoders.gunzip_gzip]

/-- The tag a client receives is the tag of the body, strong or weak. -/
theorem respond_etag
    {header : Header}
    {tag : Bytes}
    (tagged : header.values "Etag" = [tag])
    (status : Nat)
    (body : Bytes) :
    IsReceived ((respond encoders request status header body).header.get "Etag")
      tag := by
  have stillTagged : (header.add "Vary" (ascii "Accept-Encoding")).values
      "Etag" = [tag] := by
    simp [tagged]
  have kept : (respond encoders request status header body).header.get "Etag" =
      (encoders.gzipped request header body).1.get "Etag" := by
    unfold respond Header.get
    rw [Header.values_set_of_ne _ _ _ _ (by decide)]
  rw [kept]
  rcases gzipped_eq encoders request header body with same | same
  · rw [same, Header.get, stillTagged]
    exact Or.inl rfl
  · rw [same]
    exact gzipHeader_etag stillTagged

/-- The tag of a read, as its client receives it with any answer. -/
theorem buffered_etag
    (isRead : request.isRead = true)
    (ok : output.sentStatus = 200) :
    IsReceived ((buffered encoders outer request output).header.get "Etag")
      (encoders.etagFor output.body) := by
  have tagged : (taggedHeader encoders outer request output).values "Etag" =
      [encoders.etagFor output.body] := by
    rw [taggedHeader, if_pos ⟨ok, isRead⟩, Header.values_set_self]
  by_cases revalidates : Revalidates encoders request output
  · rw [buffered_of_revalidates revalidates]
    refine Or.inl ?_
    simp [Header.get, tagged]
  · rw [buffered_of_not_revalidates revalidates]
    exact respond_etag tagged output.sentStatus output.body

theorem buffered_status_eq
    (fresh : ¬Revalidates encoders request output) :
    (buffered encoders outer request output).status = output.sentStatus := by
  rw [buffered_of_not_revalidates fresh]
  rfl

theorem buffered_decoded
    (plain : (outer.merge output.header).values "Content-Encoding" = [])
    (fresh : ¬Revalidates encoders request output)
    (notHead : request.method ≠ ascii "HEAD") :
    (buffered encoders outer request output).decoded encoders =
      some output.body := by
  rw [buffered_of_not_revalidates fresh]
  apply respond_decoded _ notHead
  unfold taggedHeader
  split
  · rw [Header.values_set_of_ne _ _ _ _ (by decide), plain]
  · exact plain

/-- `HEAD` is answered like `GET`, without the body. -/
theorem buffered_head :
    (buffered encoders outer { request with method := ascii "HEAD" }
        output).status =
      (buffered encoders outer { request with method := ascii "GET" }
        output).status ∧
    (buffered encoders outer { request with method := ascii "HEAD" }
        output).header =
      (buffered encoders outer { request with method := ascii "GET" }
        output).header ∧
    (buffered encoders outer { request with method := ascii "HEAD" }
        output).body = [] := by
  have sameTags :
      taggedHeader encoders outer { request with method := ascii "HEAD" } output =
        taggedHeader encoders outer { request with method := ascii "GET" }
          output := rfl
  have same_iff :
      Revalidates encoders { request with method := ascii "HEAD" } output ↔
        Revalidates encoders { request with method := ascii "GET" } output :=
    and_congr_left fun _ => iff_of_true (Or.inr rfl) (Or.inl rfl)
  by_cases head :
      Revalidates encoders { request with method := ascii "HEAD" } output
  · rw [buffered_of_revalidates head,
      buffered_of_revalidates (same_iff.mp head)]
    exact ⟨rfl, rfl, rfl⟩
  · rw [buffered_of_not_revalidates head,
      buffered_of_not_revalidates (mt same_iff.mpr head)]
    exact ⟨rfl, rfl, rfl⟩

/-- A tag received for one output revalidates a later one exactly when their
tags are the same. -/
theorem revalidates_received_iff
    {later : Incoming}
    {again : Response}
    (isRead : request.isRead = true)
    (ok : output.sentStatus = 200)
    (laterRead : later.isRead = true)
    (stillOk : again.sentStatus = 200)
    (received : later.header.get "If-None-Match" =
      (buffered encoders outer request output).header.get "Etag") :
    Revalidates encoders later again ↔
      encoders.etagFor output.body = encoders.etagFor again.body := by
  have isReceived : IsReceived
      ((buffered encoders outer request output).header.get "Etag")
      (encoders.etagFor output.body) := buffered_etag isRead ok
  rw [← isReceived.listsTag_iff (encoders.etagFor_isQuoted output.body)
    (encoders.etagFor_isQuoted again.body), ← received]
  exact ⟨fun revalidates => revalidates.2.2,
    fun lists => ⟨(isRead_iff later).mp laterRead, stillOk, lists⟩⟩

/-- **Buffered responses.**  A read whose client is up to date, and no other
request, is answered 304.  Every other one gets the handler's status and, unless
it is `HEAD`, a body that decodes to the handler's; `HEAD` is answered like
`GET` without the body.  So a tag received with any encoding revalidates the
same body under any other and, where the tags of different bodies differ,
nothing else; and a paste that is gone is answered 404. -/
theorem buffered_correct
    (encoders : Encoders)
    (outer : Header)
    (request : Incoming)
    (output : Response)
    (plain : (outer.merge output.header).values "Content-Encoding" = []) :
    let response := buffered encoders outer request output
    let head := buffered encoders outer { request with method := ascii "HEAD" }
      output
    let get := buffered encoders outer { request with method := ascii "GET" }
      output
    (Revalidates encoders request output →
      response.status = 304 ∧ response.body = []) ∧
    (¬Revalidates encoders request output →
      response.status = output.sentStatus ∧
      (request.method ≠ ascii "HEAD" →
        response.decoded encoders = some output.body)) ∧
    (output.sentStatus ≠ 304 →
      (response.status = 304 ↔ Revalidates encoders request output)) ∧
    (head.status = get.status ∧ head.header = get.header ∧ head.body = []) ∧
    (∀ (outerLater : Header) (later : Incoming) (again : Response),
      request.isRead = true → output.sentStatus = 200 →
      later.isRead = true → again.sentStatus = 200 →
      later.header.get "If-None-Match" = response.header.get "Etag" →
      (encoders.etagFor output.body = encoders.etagFor again.body →
        output.body = again.body) →
      ((buffered encoders outerLater later again).status = 304 ↔
        output.body = again.body)) ∧
    (∀ (route : Route) (config : Config) (texts : Texts) (now : Int),
      output = route.handle config texts now request (.error .notFound) →
        response.status = 404) := by
  intro response head get
  have answered_iff : ∀ (outer : Header) (request : Incoming)
      (output : Response), output.sentStatus ≠ 304 →
      ((buffered encoders outer request output).status = 304 ↔
        Revalidates encoders request output) := by
    intro outer request output notOwn
    by_cases revalidates : Revalidates encoders request output
    · rw [buffered_of_revalidates revalidates]
      exact iff_of_true rfl revalidates
    · rw [buffered_status_eq revalidates]
      exact iff_of_false notOwn revalidates
  refine ⟨?_, ?_, answered_iff outer request output, buffered_head, ?_, ?_⟩
  · intro revalidates
    simp only [response, buffered_of_revalidates revalidates, and_self]
  · intro fresh
    exact ⟨buffered_status_eq fresh, buffered_decoded plain fresh⟩
  · intro outerLater later again isRead ok laterRead stillOk received distinct
    rw [answered_iff outerLater later again (by rw [stillOk]; decide),
      revalidates_received_iff isRead ok laterRead stillOk received]
    exact ⟨distinct, congrArg encoders.etagFor⟩
  · rintro route config texts now rfl
    have gone : (route.handle config texts now request
        (.error .notFound)).sentStatus = 404 := rfl
    have fresh : ¬Revalidates encoders request
        (route.handle config texts now request (.error .notFound)) := by
      rintro ⟨-, ok, -⟩
      rw [gone] at ok
      cases ok
    exact (buffered_status_eq fresh).trans gone

end

/-- The hash of the text `a`, and a frame of twenty bytes, longer than any body it
holds. -/
def Encoders.small : Encoders where
  sum256 _ := #v[0xca, 0x97, 0x81, 0x12, 0xca, 0x1b, 0xbd, 0xca, 0xfa, 0xc2, 0x31, 0xb3,
    0x9a, 0x23, 0xdc, 0x4d, 0xa7, 0x86, 0xef, 0xf8, 0x14, 0x7c, 0x4e, 0x72,
    0xb9, 0x80, 0x77, 0x85, 0xaf, 0xee, 0x48, 0xbb]
  gzip body := List.replicate 20 0 ++ body
  gunzip frame := some (frame.drop 20)
  gunzip_gzip _ := rfl

/-- The text `a` as a handler has written it. -/
def Response.small : Response where
  status := 200
  header := Header.empty.set "Content-Type" (ascii "text/plain; charset=utf-8")
  body := ascii "a"

example : Encoders.small.etagFor (ascii "a") = ascii "\"ypeBEsobvcr6wjGz\"" := by
  decide

theorem buffered_correct_small :
    (Header.empty.merge Response.small.header).values "Content-Encoding" = [] ∧
    ((buffered .small .empty .first .small).status = 304 ↔
      Revalidates .small .first .small) :=
  ⟨rfl, (buffered_correct .small .empty .first .small rfl).2.2.1 (by decide)⟩

end HttpApi
end Haste
