import Haste.HttpApi.CacheControl
import Haste.HttpApi.Conditional

/-!
# What a shared cache may hand on

A response that is marked public may be handed to another client whose request
has the same path and agrees in the fields that `Vary` names.  The layers name
`Accept-Encoding`, and `Origin` where the configuration lists the origin.  What
else they read is not named: whether there is an `Origin` at all, and the host
and scheme that the share URLs are made of when no base URL is configured.
-/

namespace Haste
namespace HttpApi

open Go

/-- `Server.securityHeaders`. -/
def securityHeaders (header : Header) : Header :=
  ((header.set "X-Content-Type-Options" (ascii "nosniff")).set
    "Referrer-Policy" (ascii "no-referrer")).set
    "X-Frame-Options" (ascii "DENY")

/-- Whether a `*` among the origins allows them all. -/
def Config.allowAll (config : Config) : Bool :=
  config.corsOrigins.contains (ascii "*")

/-- The origin of a request that the configuration lists by name. -/
def Config.lists (config : Config) (request : Incoming) : Bool :=
  request.header.get "Origin" != [] && !config.allowAll &&
    config.corsOrigins.contains (request.header.get "Origin")

/-- The origin of a request is allowed, by name or with all others. -/
def Config.allows (config : Config) (request : Incoming) : Bool :=
  request.header.get "Origin" != [] &&
    (config.allowAll || config.corsOrigins.contains (request.header.get "Origin"))

/-- What `cors` sets before it passes a request on. -/
def corsHeader (config : Config) (request : Incoming) (header : Header) : Header :=
  let origin := request.header.get "Origin"
  if origin ≠ [] then
    if config.allowAll then
      header.set "Access-Control-Allow-Origin" (ascii "*")
    else if config.corsOrigins.contains origin then
      (header.set "Access-Control-Allow-Origin" origin).add "Vary"
        (ascii "Origin")
    else header
  else header

/-- `Server.cors`: a preflight is answered, every other request is passed on. -/
def cors
    (config : Config)
    (request : Incoming)
    (header : Header)
    (next : Header → Response) : Response :=
  let header := corsHeader config request header
  if request.method = ascii "OPTIONS" ∧
      request.header.get "Access-Control-Request-Method" ≠ [] then
    { status := 204
      header :=
        ((header.set "Access-Control-Allow-Methods"
          (ascii "GET, POST, OPTIONS")).set "Access-Control-Allow-Headers"
          (ascii "Content-Type")).set "Access-Control-Max-Age" (ascii "86400")
      body := [] }
  else next header

/-- What a read route sends, with the layers of `Server.Handler` around it that
change a response. -/
def serve
    (route : Route)
    (config : Config)
    (encoders : Encoders)
    (texts : Texts)
    (now : Int)
    (answer : Except Store.Error (Store.Paste × Bytes))
    (request : Incoming) : Response :=
  cors config request (securityHeaders Header.empty) fun outer =>
    buffered encoders outer request
      (route.handle config texts now request answer)

/-- The field of a request that a name in `Vary` stands for. -/
def Incoming.field (request : Incoming) (name : Bytes) : List Bytes :=
  let name := String.ofList (name.map fun byte => Char.ofNat byte.toNat)
  if name = "Host" then [request.host] else request.header.values name

/-- Marked `Cache-Control: public`. -/
def Response.isPublic (response : Response) : Bool :=
  hasPrefix (response.header.get "Cache-Control") (ascii "public")

/-- Another client may be handed a public response only if its own would be the
same, or if its request differs in a field that the response names. -/
def SharedSafely
    (request other : Incoming)
    (response otherResponse : Response) : Prop :=
  response.isPublic = true →
    (response.header = otherResponse.header ∧
      response.body = otherResponse.body) ∨
    ∃ name ∈ response.header.values "Vary", request.field name ≠ other.field name

/-! ## Cross-origin headers -/

section Cors

variable (config : Config) (request : Incoming) (header : Header)

/-- The value of `Access-Control-Allow-Origin`. -/
def allowOrigin : Option Bytes :=
  if request.header.get "Origin" = [] then none
  else if config.allowAll then some (ascii "*")
  else if config.corsOrigins.contains (request.header.get "Origin") then
    some (request.header.get "Origin")
  else none

/-- `cors` allows no origin, any origin, or the one that is listed. -/
theorem cors_cases :
    config.allows request = false ∧ config.lists request = false ∧
        allowOrigin config request = none ∧
        corsHeader config request header = header ∨
      config.allowAll = true ∧ config.allows request = true ∧
        config.lists request = false ∧
        allowOrigin config request = some (ascii "*") ∧
        corsHeader config request header =
          header.set "Access-Control-Allow-Origin" (ascii "*") ∨
      config.allowAll = false ∧ config.allows request = true ∧
        config.lists request = true ∧
        allowOrigin config request = some (request.header.get "Origin") ∧
        corsHeader config request header =
          (header.set "Access-Control-Allow-Origin"
            (request.header.get "Origin")).add "Vary" (ascii "Origin") := by
  unfold allowOrigin Config.allows Config.lists corsHeader
  by_cases absent : request.header.get "Origin" = []
  · exact Or.inl (by simp [absent])
  · cases all : config.allowAll with
    | true => exact Or.inr (Or.inl (by simp [absent]))
    | false =>
        by_cases listed : request.header.get "Origin" ∈ config.corsOrigins
        · exact Or.inr (Or.inr (by simp [absent, listed]))
        · exact Or.inl (by simp [absent, listed])

theorem isSome_allowOrigin :
    (allowOrigin config request).isSome = config.allows request := by
  rcases cors_cases config request Header.empty with
    ⟨allows, -, allowed, -⟩ | ⟨-, allows, -, allowed, -⟩ |
      ⟨-, allows, -, allowed, -⟩
  · rw [allowed, allows]
    rfl
  · rw [allowed, allows]
    rfl
  · rw [allowed, allows]
    rfl

variable {config request header}

theorem corsHeader_allowOrigin
    (unset : header.values "Access-Control-Allow-Origin" = []) :
    (corsHeader config request header).values "Access-Control-Allow-Origin" =
      (allowOrigin config request).toList := by
  rcases cors_cases config request header with
    ⟨-, -, allowed, same⟩ | ⟨-, -, -, allowed, same⟩ | ⟨-, -, -, allowed, same⟩
  · simp [allowed, same, unset]
  · simp [allowed, same]
  · simp [allowed, same]

theorem corsHeader_vary (unset : header.values "Vary" = []) :
    (corsHeader config request header).values "Vary" =
      if config.lists request then [ascii "Origin"] else [] := by
  rcases cors_cases config request header with
    ⟨-, lists, -, same⟩ | ⟨-, -, lists, -, same⟩ | ⟨-, -, lists, -, same⟩
  · simp [lists, same, unset]
  · simp [lists, same, unset]
  · simp [lists, same, unset]

/-- `cors` leaves every other field as it is. -/
theorem corsHeader_values_of_ne
    {name : String}
    (notAllow : name ≠ "Access-Control-Allow-Origin")
    (notVary : name ≠ "Vary") :
    (corsHeader config request header).values name = header.values name := by
  rcases cors_cases config request header with
    ⟨-, -, -, same⟩ | ⟨-, -, -, -, same⟩ | ⟨-, -, -, -, same⟩
  · rw [same]
  · simp [same, notAllow]
  · simp [same, notAllow, notVary]

variable {other : Incoming}

/-- Requests are allowed the same origin when both or neither are allowed
theirs, unless the configuration lists the first one's and the second one's is
another. -/
theorem allowOrigin_eq_iff
    (sameListed : config.lists request = true →
      request.header.get "Origin" = other.header.get "Origin") :
    allowOrigin config request = allowOrigin config other ↔
      config.allows request = config.allows other := by
  constructor
  · intro same
    rw [← isSome_allowOrigin, same, isSome_allowOrigin]
  · intro same
    rcases cors_cases config request Header.empty with
      ⟨allows, -, allowed, -⟩ | ⟨all, allows, -, allowed, -⟩ |
        ⟨-, -, lists, -, -⟩
    · have unlisted := isSome_allowOrigin config other
      rw [← same, allows, Option.isSome_eq_false_iff, Option.isNone_iff_eq_none]
        at unlisted
      rw [allowed, unlisted]
    · rcases cors_cases config other Header.empty with
        ⟨notAllows, -, -, -⟩ | ⟨-, -, -, otherAllowed, -⟩ | ⟨notAll, -, -, -, -⟩
      · rw [allows, notAllows] at same
        cases same
      · rw [allowed, otherAllowed]
      · rw [all] at notAll
        cases notAll
    · unfold allowOrigin
      rw [sameListed lists]

/-- What `cors` sets follows from the origin it allows. -/
theorem corsHeader_eq :
    corsHeader config request header =
      match allowOrigin config request with
      | none => header
      | some origin =>
          if config.allowAll then
            header.set "Access-Control-Allow-Origin" (ascii "*")
          else
            (header.set "Access-Control-Allow-Origin" origin).add "Vary"
              (ascii "Origin") := by
  rcases cors_cases config request header with
    ⟨-, -, allowed, same⟩ | ⟨all, -, -, allowed, same⟩ |
      ⟨notAll, -, -, allowed, same⟩
  · rw [same, allowed]
  · simp only [same, allowed, all, if_true]
  · simp only [same, allowed, notAll, Bool.false_eq_true, if_false]

/-- Requests that are allowed the same origin get the same header. -/
theorem corsHeader_congr
    (sameOrigin : allowOrigin config request = allowOrigin config other) :
    corsHeader config request header = corsHeader config other header := by
  rw [corsHeader_eq, corsHeader_eq, sameOrigin]

end Cors

/-! ## Share URLs -/

/-- The scheme a request came by, as a trusted proxy or the connection tells. -/
def Config.scheme (config : Config) (request : Incoming) : Bytes :=
  if config.trustProxy ∧ request.header.get "X-Forwarded-Proto" ≠ [] then
    request.header.get "X-Forwarded-Proto"
  else if request.tls then ascii "https" else ascii "http"

theorem baseURL_of_unset
    {config : Config}
    (unset : config.baseURL = [])
    (request : Incoming) :
    baseURL config request =
      config.scheme request ++ ascii "://" ++ request.host := by
  simp only [baseURL, unset, ne_eq, not_true_eq_false, if_false, Config.scheme]

/-- The instants of a paste have a JSON text. -/
def Encodable (texts : Texts) (paste : Store.Paste) : Prop :=
  texts.time paste.createdAt ≠ none ∧
    ∀ own ∈ paste.expiresAt, texts.time own ≠ none

/-- The text of a share URL is that of the base URL, followed by the path. -/
theorem field_url (name : String) (base path : Bytes) :
    field name (quote (base ++ 0x2F :: path)) =
      quote (ascii name) ++ ascii ":\"" ++ escape base ++
        (escape (0x2F :: path) ++ ascii "\"") := by
  unfold field quote
  rw [escape_append_of_ascii (by decide)]
  simp only [List.append_assoc]
  rfl

/-- An object whose second to fourth fields are share URLs: their base stands in
three places, and nothing else depends on it. -/
theorem object_of_urls
    (key filename paste raw download : Bytes)
    (more : List Bytes) :
    ∃ front second third back : Bytes, ∀ base,
      object ([key, field "url" (quote (base ++ 0x2F :: paste)),
        field "rawUrl" (quote (base ++ 0x2F :: raw)),
        field "downloadUrl" (quote (base ++ 0x2F :: download)), filename] ++
          more) =
        front ++ escape base ++ second ++ escape base ++ third ++
          escape base ++ back := by
  refine ⟨ascii "\x7b" ++ key ++ ascii "," ++ (quote (ascii "url") ++ ascii ":\""),
    (escape (0x2F :: paste) ++ ascii "\"") ++ ascii "," ++
      (quote (ascii "rawUrl") ++ ascii ":\""),
    (escape (0x2F :: raw) ++ ascii "\"") ++ ascii "," ++
      (quote (ascii "downloadUrl") ++ ascii ":\""),
    (escape (0x2F :: download) ++ ascii "\"") ++ ascii "," ++
      (ascii ",").intercalate (filename :: more) ++ ascii "\x7d\n", fun base => ?_⟩
  simp only [object, field_url, List.cons_append, List.nil_append,
    List.intercalate_cons_cons, List.append_assoc]

/-- The fields after the file name do not depend on the base URL. -/
theorem encode_of_encodable
    {texts : Texts}
    {paste : Store.Paste}
    (encodable : Encodable texts paste)
    (content : Bytes) :
    ∃ more : List Bytes, ∀ base,
      (describe texts base paste content).encode texts =
        some (object ([field "key" (quote paste.code),
          field "url" (quote (base ++ 0x2F :: paste.code)),
          field "rawUrl" (quote (base ++ 0x2F :: (ascii "raw/" ++ paste.code))),
          field "downloadUrl"
            (quote (base ++ 0x2F :: (ascii "download/" ++ paste.code))),
          field "filename"
            (quote (paste.code ++ ascii "." ++ extensionFor paste.language))] ++
          more)) := by
  obtain ⟨createdAt, createdText⟩ := Option.ne_none_iff_exists'.mp encodable.1
  let more (expiresAt : List Bytes) :=
    optionalField "language" paste.language ++
      (optionalField "title" paste.title ++
        (optionalField "content" content ++
          ([field "chars" (number paste.chars),
            field "bytes" (number paste.rawBytes),
            field "stored" (number paste.storedSize),
            field "ratio" (describe texts [] paste content).ratio,
            field "createdAt" createdAt] ++ expiresAt)))
  cases expires : paste.expiresAt with
  | none =>
      refine ⟨more [], fun base => ?_⟩
      simp only [PasteResponse.encode, describe, createdText, expires,
        Option.bind_eq_bind, Option.bind_some, List.append_assoc]
      rfl
  | some own =>
      obtain ⟨text, ownText⟩ :=
        Option.ne_none_iff_exists'.mp (encodable.2 own expires)
      refine ⟨more [field "expiresAt" text], fun base => ?_⟩
      simp only [PasteResponse.encode, describe, createdText, expires, ownText,
        Option.bind_eq_bind, Option.bind_some, Option.map_some,
        List.append_assoc]
      rfl

/-- The base URL stands in three places of the body, and nothing else of the
body depends on it. -/
theorem encode_describe
    {texts : Texts}
    {paste : Store.Paste}
    (encodable : Encodable texts paste)
    (content : Bytes) :
    ∃ front second third back : Bytes, ∀ base,
      (describe texts base paste content).encode texts =
        some (front ++ escape base ++ second ++ escape base ++ third ++
          escape base ++ back) := by
  obtain ⟨more, encoded⟩ := encode_of_encodable encodable content
  obtain ⟨front, second, third, back, body⟩ := object_of_urls
    (field "key" (quote paste.code))
    (field "filename"
      (quote (paste.code ++ ascii "." ++ extensionFor paste.language)))
    paste.code (ascii "raw/" ++ paste.code) (ascii "download/" ++ paste.code)
    more
  refine ⟨front, second, third, back, fun base => ?_⟩
  rw [encoded, body]

/-- An instant without a text leaves nothing to send. -/
theorem encode_describe_of_not_encodable
    {texts : Texts}
    {paste : Store.Paste}
    (notEncodable : ¬Encodable texts paste)
    (base content : Bytes) :
    (describe texts base paste content).encode texts = none := by
  rw [Encodable, not_and_or, not_not] at notEncodable
  rcases notEncodable with noCreated | noExpires
  · simp [PasteResponse.encode, describe, noCreated]
  · simp only [not_forall, not_not, exists_prop] at noExpires
    obtain ⟨own, expires, noText⟩ := noExpires
    simp only [Option.mem_def] at expires
    simp [PasteResponse.encode, describe, expires, noText]

/-- Text repeated in three places is determined by the whole. -/
theorem eq_of_repeated
    {front second third back left right : Bytes}
    (same : front ++ left ++ second ++ left ++ third ++ left ++ back =
      front ++ right ++ second ++ right ++ third ++ right ++ back) :
    left = right := by
  have lengths := congrArg List.length same
  simp only [List.length_append] at lengths
  have sameLength : left.length = right.length := by omega
  simp only [List.append_assoc, List.append_cancel_left_eq] at same
  exact (List.append_inj same sameLength).1

/-- Bodies for two base URLs are the same exactly when nothing is sent or the
base URLs have the same text. -/
theorem encode_describe_eq_iff
    (texts : Texts)
    (paste : Store.Paste)
    (content base otherBase : Bytes) :
    ((describe texts base paste content).encode texts).getD [] =
        ((describe texts otherBase paste content).encode texts).getD [] ↔
      (Encodable texts paste → escape base = escape otherBase) := by
  by_cases encodable : Encodable texts paste
  · obtain ⟨front, second, third, back, body⟩ := encode_describe encodable content
    rw [body, body, Option.getD_some, Option.getD_some,
      forall_prop_of_true encodable]
    exact ⟨eq_of_repeated, fun same => by rw [same]⟩
  · rw [encode_describe_of_not_encodable encodable,
      encode_describe_of_not_encodable encodable]
    exact iff_of_true rfl fun possible => absurd possible encodable

/-! ## What the layers send -/

/-- Compression sets no other field than these. -/
theorem gzipped_values_of_ne
    {encoders : Encoders}
    {name : String}
    (notVary : name ≠ "Vary")
    (notEncoding : name ≠ "Content-Encoding")
    (notTag : name ≠ "Etag")
    (request : Incoming)
    (header : Header)
    (body : Bytes) :
    (encoders.gzipped request header body).1.values name = header.values name := by
  rcases gzipped_eq encoders request header body with same | same
  · rw [same, Header.values_add_of_ne _ _ _ _ notVary]
  · rw [same, gzipHeader_values_of_ne notEncoding notTag,
      Header.values_add_of_ne _ _ _ _ notVary]

/-- Every response that is sent in full varies by encoding. -/
theorem gzipped_vary
    (encoders : Encoders)
    (request : Incoming)
    (header : Header)
    (body : Bytes) :
    (encoders.gzipped request header body).1.values "Vary" =
      header.values "Vary" ++ [ascii "Accept-Encoding"] := by
  rcases gzipped_eq encoders request header body with same | same
  · rw [same, Header.values_add_self]
  · rw [same, gzipHeader_values_of_ne (by decide) (by decide),
      Header.values_add_self]

/-- A client without a tag is never up to date. -/
theorem not_revalidates_of_unconditional
    {encoders : Encoders}
    {request : Incoming}
    {output : Response}
    (unconditional : request.header.get "If-None-Match" = []) :
    ¬Revalidates encoders request output := by
  rintro ⟨-, -, lists⟩
  rw [unconditional, ← etagMatches_iff (encoders.etagFor_isQuoted output.body)]
    at lists
  cases lists

/-- A handler of these routes sets no other field than these. -/
theorem Route.handle_unset
    {name : String}
    (other : name ∉ ["Cache-Control", "X-Robots-Tag", "Content-Type",
      "Content-Security-Policy", "Content-Disposition", "Retry-After"])
    (route : Route)
    (config : Config)
    (texts : Texts)
    (now : Int)
    (request : Incoming)
    (answer : Except Store.Error (Store.Paste × Bytes)) :
    (route.handle config texts now request answer).header.values name = [] := by
  simp only [List.mem_cons, List.not_mem_nil, not_or, or_false] at other
  obtain ⟨notCache, notRobots, notType, notPolicy, notDisposition, notRetry⟩ :=
    other
  rcases answer with error | ⟨paste, content⟩
  · simp only [Route.handle, ErrorResponse.write, writeJSON]
    split <;> simp [notType, notRetry]
  · cases route with
    | read =>
        simp [Route.handle, handleRead, writeJSON, setCacheControl, noIndex,
          notCache, notRobots, notType]
    | raw =>
        simp [Route.handle, handleRaw, setCacheControl, noIndex, notCache,
          notRobots, notType, notPolicy, notDisposition]
    | download =>
        simp [Route.handle, handleDownload, setCacheControl, noIndex, notCache,
          notRobots, notType, notPolicy, notDisposition]

section Serve

variable {config : Config} {encoders : Encoders} {texts : Texts} {route : Route}
  {now : Int} {answer : Except Store.Error (Store.Paste × Bytes)}
  {request other : Incoming}

/-- A handler's response passes through `cors` and `buffered`. -/
theorem serve_get
    (isGet : request.method = ascii "GET")
    (unconditional : request.header.get "If-None-Match" = []) :
    serve route config encoders texts now answer request =
      respond encoders request
        (route.handle config texts now request answer).sentStatus
        (taggedHeader encoders
          (corsHeader config request (securityHeaders Header.empty)) request
          (route.handle config texts now request answer))
        (route.handle config texts now request answer).body := by
  have notPreflight : ¬(request.method = ascii "OPTIONS" ∧
      request.header.get "Access-Control-Request-Method" ≠ []) := by
    rw [isGet]
    exact fun preflight => absurd preflight.1 (by decide)
  simp only [serve, cors, if_neg notPreflight]
  exact buffered_of_not_revalidates
    (not_revalidates_of_unconditional unconditional)

theorem taggedHeader_values_of_ne
    {outer : Header}
    {output : Response}
    {name : String}
    (notTag : name ≠ "Etag") :
    (taggedHeader encoders outer request output).values name =
      (outer.merge output.header).values name := by
  unfold taggedHeader
  split
  · exact Header.values_set_of_ne _ _ _ _ notTag
  · rfl

/-- A field that neither the tag nor compression sets is the handler's or, where
it has none, that of the layers around it. -/
theorem serve_values
    {name : String}
    (untouched : name ∉ ["Vary", "Content-Encoding", "Etag", "Content-Length"])
    (isGet : request.method = ascii "GET")
    (unconditional : request.header.get "If-None-Match" = []) :
    (serve route config encoders texts now answer request).header.values name =
      ((corsHeader config request (securityHeaders Header.empty)).merge
        (route.handle config texts now request answer).header).values name := by
  simp only [List.mem_cons, List.not_mem_nil, not_or, or_false] at untouched
  obtain ⟨notVary, notEncoding, notTag, notLength⟩ := untouched
  rw [serve_get isGet unconditional]
  unfold respond
  rw [Header.values_set_of_ne _ _ _ _ notLength,
    gzipped_values_of_ne notVary notEncoding notTag,
    taggedHeader_values_of_ne notTag]

/-- What a response says it varies by. -/
theorem serve_vary
    (isGet : request.method = ascii "GET")
    (unconditional : request.header.get "If-None-Match" = []) :
    (serve route config encoders texts now answer request).header.values "Vary" =
      (if config.lists request then [ascii "Origin"] else []) ++
        [ascii "Accept-Encoding"] := by
  rw [serve_get isGet unconditional]
  unfold respond
  rw [Header.values_set_of_ne _ _ _ _ (by decide), gzipped_vary,
    taggedHeader_values_of_ne (by decide), Header.values_merge,
    Route.handle_unset (by decide), if_pos rfl,
    corsHeader_vary (by simp [securityHeaders])]

/-- The origin a response allows. -/
theorem serve_allowOrigin
    (isGet : request.method = ascii "GET")
    (unconditional : request.header.get "If-None-Match" = []) :
    (serve route config encoders texts now answer request).header.values
      "Access-Control-Allow-Origin" = (allowOrigin config request).toList := by
  rw [serve_values (by decide) isGet unconditional, Header.values_merge,
    Route.handle_unset (by decide), if_pos rfl,
    corsHeader_allowOrigin (by simp [securityHeaders])]

/-- Public responses are those that serve a paste with a second or more of its
own lifetime left. -/
theorem serve_isPublic_iff
    (isGet : request.method = ascii "GET")
    (unconditional : request.header.get "If-None-Match" = []) :
    (serve route config encoders texts now answer request).isPublic = true ↔
      ∃ paste content, answer = .ok (paste, content) ∧ maxAge now paste ≠ 0 := by
  have cacheHeader : (serve route config encoders texts now answer
      request).header.values "Cache-Control" =
        (route.handle config texts now request answer).header.values
          "Cache-Control" := by
    rw [serve_values (by decide) isGet unconditional, Header.values_merge,
      corsHeader_values_of_ne (by decide) (by decide)]
    split
    case isTrue unset => rw [unset]; simp [securityHeaders]
    case isFalse => rfl
  unfold Response.isPublic Header.get
  rw [cacheHeader]
  cases answer with
  | error error =>
      rw [Route.handle_error]
      simp [hasPrefix, ascii]
  | ok served =>
      obtain ⟨paste, content⟩ := served
      rw [(route.handle_ok config texts now request paste content).2,
        List.headD_cons, cacheControl]
      by_cases uncached : maxAge now paste = 0
      · rw [if_pos uncached]
        simp only [Except.ok.injEq, Prod.mk.injEq]
        refine iff_of_false (by decide) ?_
        rintro ⟨_, _, ⟨rfl, rfl⟩, cached⟩
        exact cached uncached
      · rw [if_neg uncached]
        refine iff_of_true ?_ ⟨paste, content, rfl, uncached⟩
        rfl

/-- A response decodes to what its handler has written. -/
theorem serve_decoded
    (isGet : request.method = ascii "GET")
    (unconditional : request.header.get "If-None-Match" = []) :
    (serve route config encoders texts now answer request).decoded encoders =
      some (route.handle config texts now request answer).body := by
  rw [serve_get isGet unconditional]
  refine respond_decoded ?_ ?_ _ _
  · rw [taggedHeader_values_of_ne (by decide), Header.values_merge,
      Route.handle_unset (by decide), if_pos rfl,
      corsHeader_values_of_ne (by decide) (by decide)]
    simp [securityHeaders]
  · rw [isGet]
    decide

theorem respond_congr
    (sameMethod : request.method = other.method)
    (sameEncoding : request.header.get "Accept-Encoding" =
      other.header.get "Accept-Encoding") :
    respond encoders request = respond encoders other := by
  have sameWants : Encoders.wantsGzip request = Encoders.wantsGzip other := by
    funext header body
    simp only [Encoders.wantsGzip, sameEncoding]
  funext status header body
  simp only [respond, Encoders.gzipped, sameWants, sameMethod]

/-- Nothing else that a response depends on can differ. -/
theorem serve_congr
    (isGet : request.method = ascii "GET")
    (otherGet : other.method = ascii "GET")
    (unconditional : request.header.get "If-None-Match" = [])
    (otherUnconditional : other.header.get "If-None-Match" = [])
    (sameEncoding : request.header.get "Accept-Encoding" =
      other.header.get "Accept-Encoding")
    (sameOrigin : allowOrigin config request = allowOrigin config other)
    (sameOutput : route.handle config texts now request answer =
      route.handle config texts now other answer) :
    serve route config encoders texts now answer request =
      serve route config encoders texts now answer other := by
  have sameMethod : request.method = other.method := isGet.trans otherGet.symm
  have sameRead : request.isRead = other.isRead := by
    rw [Incoming.isRead, Incoming.isRead, sameMethod]
  rw [serve_get isGet unconditional, serve_get otherGet otherUnconditional,
    sameOutput, corsHeader_congr sameOrigin,
    respond_congr sameMethod sameEncoding, taggedHeader, taggedHeader, sameRead]

/-- Handlers whose bodies are the same send the same. -/
theorem Route.handle_eq_of_body_eq
    (sameBody : (route.handle config texts now request answer).body =
      (route.handle config texts now other answer).body) :
    route.handle config texts now request answer =
      route.handle config texts now other answer := by
  rcases answer with error | ⟨paste, content⟩
  · rfl
  · cases route with
    | read =>
        simp only [Route.handle, handleRead, writeJSON] at sameBody ⊢
        rw [sameBody]
    | raw => rfl
    | download => rfl

theorem escape_baseURL_eq_iff :
    escape (baseURL config request) = escape (baseURL config other) ↔
      (config.baseURL = [] →
        escape (config.scheme request ++ ascii "://" ++ request.host) =
          escape (config.scheme other ++ ascii "://" ++ other.host)) := by
  by_cases unset : config.baseURL = []
  · rw [baseURL_of_unset unset, baseURL_of_unset unset, forall_prop_of_true unset]
  · refine iff_of_true ?_ fun isUnset => absurd isUnset unset
    simp only [baseURL, ne_eq, unset, not_false_eq_true, if_true]

/-- The bodies of a paste depend on the request by the share URLs alone. -/
theorem Route.handle_body_eq_iff
    {paste : Store.Paste}
    {content : Bytes} :
    (route.handle config texts now request (.ok (paste, content))).body =
        (route.handle config texts now other (.ok (paste, content))).body ↔
      (route = .read → Encodable texts paste → config.baseURL = [] →
        escape (config.scheme request ++ ascii "://" ++ request.host) =
          escape (config.scheme other ++ ascii "://" ++ other.host)) := by
  rw [← escape_baseURL_eq_iff]
  cases route with
  | read =>
      rw [forall_prop_of_true rfl]
      exact encode_describe_eq_iff texts paste content _ _
  | raw => exact iff_of_true rfl fun isRead => absurd isRead (by decide)
  | download => exact iff_of_true rfl fun isRead => absurd isRead (by decide)

/-- Two responses that serve a paste are the same exactly when the requests are
allowed the same origin and, as far as they matter, share URLs are the same. -/
theorem serve_eq_iff
    {paste : Store.Paste}
    {content : Bytes}
    (isGet : request.method = ascii "GET")
    (otherGet : other.method = ascii "GET")
    (unconditional : request.header.get "If-None-Match" = [])
    (otherUnconditional : other.header.get "If-None-Match" = [])
    (sameEncoding : request.header.values "Accept-Encoding" =
      other.header.values "Accept-Encoding")
    (sameListed : config.lists request = true →
      request.header.values "Origin" = other.header.values "Origin") :
    ((serve route config encoders texts now (.ok (paste, content))
          request).header =
        (serve route config encoders texts now (.ok (paste, content))
          other).header ∧
      (serve route config encoders texts now (.ok (paste, content))
          request).body =
        (serve route config encoders texts now (.ok (paste, content))
          other).body) ↔
      config.allows request = config.allows other ∧
        (route = .read → Encodable texts paste → config.baseURL = [] →
          escape (config.scheme request ++ ascii "://" ++ request.host) =
            escape (config.scheme other ++ ascii "://" ++ other.host)) := by
  have listedOrigin : config.lists request = true →
      request.header.get "Origin" = other.header.get "Origin" :=
    fun lists => congrArg (List.headD · []) (sameListed lists)
  rw [← Route.handle_body_eq_iff, ← allowOrigin_eq_iff listedOrigin]
  constructor
  · rintro ⟨sameHeader, sameBody⟩
    constructor
    · have sameValues : (allowOrigin config request).toList =
          (allowOrigin config other).toList := by
        rw [← serve_allowOrigin isGet unconditional,
          ← serve_allowOrigin otherGet otherUnconditional, sameHeader]
      have sameHead := congrArg List.head? sameValues
      rwa [Option.head?_toList, Option.head?_toList] at sameHead
    · apply Option.some.inj
      rw [← serve_decoded isGet unconditional,
        ← serve_decoded otherGet otherUnconditional, Response.decoded,
        Response.decoded, sameHeader, sameBody]
  · rintro ⟨sameOrigin, sameBody⟩
    rw [serve_congr isGet otherGet unconditional otherUnconditional
      (congrArg (List.headD · []) sameEncoding) sameOrigin
      (Route.handle_eq_of_body_eq sameBody)]
    exact ⟨rfl, rfl⟩

end Serve

theorem maxAge_eq_zero_iff (now : Int) (paste : Store.Paste) :
    maxAge now paste = 0 ↔ ∃ own ∈ paste.expiresAt, own - now < second := by
  cases expires : paste.expiresAt with
  | none => simp [maxAge, expires, cacheSeconds]
  | some own =>
      simp only [Option.mem_def, Option.some.injEq, exists_eq_left']
      rcases maxAge_cases expires with ⟨short, uncached⟩ | ⟨long, cached⟩
      · exact iff_of_true uncached short
      · rw [cached]
        simp only [second, cacheSeconds] at long ⊢
        omega

/-- What a shared cache takes to tell requests apart. -/
theorem exists_vary_iff
    {response : Response}
    {lists : Bool}
    (varies : response.header.values "Vary" =
      (if lists then [ascii "Origin"] else []) ++ [ascii "Accept-Encoding"])
    (request other : Incoming) :
    (∃ name ∈ response.header.values "Vary",
        request.field name ≠ other.field name) ↔
      (lists = true ∧
        request.header.values "Origin" ≠ other.header.values "Origin") ∨
      request.header.values "Accept-Encoding" ≠
        other.header.values "Accept-Encoding" := by
  have origin : ∀ request : Incoming,
      request.field (ascii "Origin") = request.header.values "Origin" :=
    fun _ => rfl
  have encoding : ∀ request : Incoming,
      request.field (ascii "Accept-Encoding") =
        request.header.values "Accept-Encoding" :=
    fun _ => rfl
  rw [varies]
  cases lists <;> simp [origin, encoding]

/-- **Shared caches.**  For two unconditional `GET` requests for the same path,
a public response to the first may be handed to the second if and only if the
paste is not public after all, or a field that the response names tells the
requests apart, or they are allowed the same origin and, where the response is
JSON, their share URLs are the same. -/
theorem shared_safely_iff
    (route : Route)
    (config : Config)
    (encoders : Encoders)
    (texts : Texts)
    (options : Store.Options)
    (env : Store.Env)
    (db : Store.Database)
    (now : Int)
    (request other : Incoming)
    (isGet : request.method = ascii "GET")
    (otherGet : other.method = ascii "GET")
    (unconditional : request.header.get "If-None-Match" = [])
    (otherUnconditional : other.header.get "If-None-Match" = [])
    (samePath : request.code = other.code) :
    SharedSafely request other
        (serve route config encoders texts now
          (Store.get options env request.code db) request)
        (serve route config encoders texts now
          (Store.get options env other.code db) other) ↔
      ∀ paste content,
        Store.get options env request.code db = .ok (paste, content) →
          (∃ own ∈ paste.expiresAt, own - now < second) ∨
          (config.lists request = true ∧
            request.header.values "Origin" ≠ other.header.values "Origin") ∨
          request.header.values "Accept-Encoding" ≠
            other.header.values "Accept-Encoding" ∨
          (config.allows request = config.allows other ∧
            (route = .read → Encodable texts paste → config.baseURL = [] →
              escape (config.scheme request ++ ascii "://" ++ request.host) =
                escape (config.scheme other ++ ascii "://" ++ other.host))) := by
  rw [← samePath]
  unfold SharedSafely
  rw [serve_isPublic_iff isGet unconditional,
    exists_vary_iff (serve_vary isGet unconditional)]
  generalize Store.get options env request.code db = answer
  by_cases told : (config.lists request = true ∧
        request.header.values "Origin" ≠ other.header.values "Origin") ∨
      request.header.values "Accept-Encoding" ≠
        other.header.values "Accept-Encoding"
  · refine iff_of_true (fun _ => Or.inr told) fun paste content _ => ?_
    exact Or.inr (told.imp_right Or.inl)
  · have sameListed : config.lists request = true →
        request.header.values "Origin" = other.header.values "Origin" := by
      intro lists
      by_contra differ
      exact told (Or.inl ⟨lists, differ⟩)
    have sameEncoding : request.header.values "Accept-Encoding" =
        other.header.values "Accept-Encoding" := by
      by_contra differ
      exact told (Or.inr differ)
    constructor
    · rintro safe paste content rfl
      by_cases uncached : maxAge now paste = 0
      · exact Or.inl ((maxAge_eq_zero_iff now paste).mp uncached)
      · have same := (safe ⟨paste, content, rfl, uncached⟩).resolve_right told
        exact Or.inr (Or.inr (Or.inr ((serve_eq_iff isGet otherGet unconditional
          otherUnconditional sameEncoding sameListed).mp same)))
    · rintro safe ⟨paste, content, rfl, cached⟩
      rcases safe paste content rfl with short | lists | differ | alike
      · exact absurd ((maxAge_eq_zero_iff now paste).mpr short) cached
      · exact Or.inr (Or.inl lists)
      · exact Or.inr (Or.inr differ)
      · exact Or.inl ((serve_eq_iff isGet otherGet unconditional
          otherUnconditional sameEncoding sameListed).mpr alike)

/-- A request for the first paste under another name of the host. -/
def Incoming.elsewhere : Incoming := { Incoming.first with host := ascii "paste" }

theorem shared_safely_first :
    (Incoming.first.method = ascii "GET" ∧ Incoming.elsewhere.method = ascii "GET" ∧
      Incoming.first.header.get "If-None-Match" = [] ∧
      Incoming.elsewhere.header.get "If-None-Match" = [] ∧
      Incoming.first.code = Incoming.elsewhere.code) ∧
    SharedSafely .first .elsewhere
      (serve .raw .unset .small .small (ofUnix 105)
        (Store.get Store.Options.brief (.calm (ofUnix 105)) Incoming.first.code
          Store.firstStored) .first)
      (serve .raw .unset .small .small (ofUnix 105)
        (Store.get Store.Options.brief (.calm (ofUnix 105))
          Incoming.elsewhere.code Store.firstStored) .elsewhere) := by
  refine ⟨⟨rfl, rfl, rfl, rfl, rfl⟩, ?_⟩
  rw [shared_safely_iff .raw .unset .small .small Store.Options.brief
    (.calm (ofUnix 105)) Store.firstStored (ofUnix 105) .first .elsewhere rfl rfl
    rfl rfl rfl]
  intro paste content _
  exact Or.inr (Or.inr (Or.inr ⟨rfl, fun isRead => absurd isRead (by decide)⟩))

/-- The JSON of the first paste is public, names `Accept-Encoding` alone, and
holds the host it was asked for under. -/
theorem shared_across_hosts :
    ¬SharedSafely .first .elsewhere
      (serve .read .unset .small .small (ofUnix 105)
        (Store.get Store.Options.brief (.calm (ofUnix 105)) Incoming.first.code
          Store.firstStored) .first)
      (serve .read .unset .small .small (ofUnix 105)
        (Store.get Store.Options.brief (.calm (ofUnix 105))
          Incoming.elsewhere.code Store.firstStored) .elsewhere) := by
  have elsewhere : Store.get Store.Options.brief (.calm (ofUnix 105))
      Incoming.elsewhere.code Store.firstStored = .ok (Store.firstPaste, ascii "a") :=
    get_first
  rw [get_first, elsewhere]
  intro safe
  rcases safe (by decide +kernel) with ⟨-, sameBody⟩ | ⟨name, varies, differ⟩
  · revert sameBody
    decide +kernel
  · have onlyEncoding : (serve .read .unset .small .small (ofUnix 105)
        (.ok (Store.firstPaste, ascii "a")) .first).header.values "Vary" =
          [ascii "Accept-Encoding"] := by
      decide +kernel
    rw [onlyEncoding, List.mem_singleton] at varies
    exact differ (by rw [varies]; rfl)

end HttpApi
end Haste
