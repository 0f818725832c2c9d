import Haste.Store.Create

/-!
# Creating a paste over HTTP

Both create routes read the body, refuse settings in the query string, take a
JSON envelope or a raw body, and hand the paste to the store.  An error of the
store is mapped onto a status.  Decoding JSON is a parameter: the function of a
body that answers the envelope it holds, if it holds one.
-/

namespace Haste
namespace HttpApi

open Go

/-- `ReservedCodes`, the top-level paths the server owns. -/
def reservedCodes : List Bytes :=
  ["api", "raw", "download", "documents", "assets", "healthz", "health",
    "about", "new", "docs", "static", "index", "favicon", "robots",
    "manifest"].map ascii

example : ∀ word ∈ reservedCodes, 3 ≤ (toLower word).length := by decide +kernel

/-- `createRequest`: the JSON envelope.  The lifetime is in seconds. -/
structure CreateRequest where
  content : Bytes
  language : Bytes
  title : Bytes
  expiresIn : Int64

/-- Why a request body cannot be read. -/
inductive ReadError
  /-- `http.MaxBytesError` -/
  | tooLarge
  | unreadable
  deriving DecidableEq, Repr

/-- What `create` reads of a request: the verdict of the rate limiter, the body,
the parameters of the query string and the `Content-Type` header. -/
structure Request where
  allowed : Bool
  body : Except ReadError Bytes
  query : List (Bytes × Bytes)
  contentType : Bytes

/-- `errorResponse`, with its status and whether it says to retry after a
second. -/
structure ErrorResponse where
  status : Nat
  retryAfter : Bool
  error : String
  message : String
  deriving DecidableEq, Repr

/-- `writeError`. -/
def writeError (status : Nat) (error message : String) : ErrorResponse where
  status := status
  retryAfter := false
  error := error
  message := message

/-- `expiryOptionsSecs`: the lifetimes as the API publishes them. -/
def expiryOptionsSecs : List Int :=
  Store.ttlOptions.map fun ttl => ttl / second

/-- `badExpiryMessage`. -/
def badExpiryMessage : String :=
  "expiresIn must be 0 (no expiry) or one of " ++
    String.intercalate ", " (expiryOptionsSecs.map toString) ++ " seconds"

/-- `badTitleMessage`. -/
def badTitleMessage : String :=
  "title must be at most " ++ toString Store.maxTitleChars ++
    " characters and hold no control characters"

/-- `Server.fail`: an error of the store as a response. -/
def fail : Store.Error → ErrorResponse
  | .notFound => writeError 404 "not_found" "no paste with that code"
  | .empty => writeError 400 "empty" "paste is empty"
  | .titleTooLong _ | .titleControl =>
      writeError 400 "bad_title" badTitleMessage
  | .badTTL => writeError 400 "bad_expiry" badExpiryMessage
  | .tooLarge chars limit =>
      writeError 413 "too_large" (Store.Error.tooLarge chars limit).message
  | .busy =>
      { writeError 503 "busy"
          "the server is saving too many pastes right now, try again shortly"
        with retryAfter := true }
  | .noRoom _ _ =>
      writeError 507 "no_room"
        "the server's storage cap is smaller than this paste"
  | .cancelled | .statement _ _ | .id _ | .codec _ | .diverged =>
      writeError 500 "internal" "internal server error"

/-- `languageRe` on the first character of a language. -/
def languageHead (byte : UInt8) : Bool :=
  (0x61 ≤ byte && byte ≤ 0x7A) || (0x30 ≤ byte && byte ≤ 0x39)

/-- `languageRe.MatchString`. -/
def languageRe : Bytes → Bool
  | [] => false
  | first :: rest =>
      languageHead first && rest.length ≤ 31 &&
        rest.all fun byte =>
          languageHead byte || (ascii "+#._-").contains byte

/-- `normalizeLanguage`. -/
def normalizeLanguage (language : Bytes) : Bytes :=
  let lowered := toLower (trimSpace language)
  if languageRe lowered then lowered else []

/-- `isJSON`. -/
def isJSON (contentType : Bytes) : Bool :=
  equalFold (trimSpace (before 0x3B contentType)) (ascii "application/json")

/-- `envelopeOnlyParam`: the first setting found in the query string. -/
def envelopeOnlyParam (query : List (Bytes × Bytes)) : Option String :=
  ["title", "language", "expiresIn"].find? fun name =>
    query.any fun parameter => parameter.1 == ascii name

/-- `time.Duration(req.ExpiresIn) * time.Second`, which wraps. -/
def lifetime (expiresIn : Int64) : Int := (expiresIn * 1000000000).toInt

/-- What `create` asks of the store. -/
def CreateRequest.toStore (request : CreateRequest) : Store.Request where
  content := request.content
  language := normalizeLanguage request.language
  title := request.title
  ttl := lifetime request.expiresIn

/-- The envelope of a JSON body, or a raw body that is the paste itself. -/
def decodeBody
    (unmarshal : Bytes → Option CreateRequest)
    (contentType body : Bytes) : Option CreateRequest :=
  if isJSON contentType then unmarshal body
  else some { content := body, language := [], title := [], expiresIn := 0 }

/-- `Server.create`. -/
def create
    (unmarshal : Bytes → Option CreateRequest)
    (options : Store.Options)
    (request : Request)
    (env : Store.Env)
    (db : Store.Database) :
    Except ErrorResponse (Store.Paste × Bytes) × Store.Database :=
  if request.allowed = false then
    (.error { writeError 429 "rate_limited" "too many pastes, slow down"
      with retryAfter := true }, db)
  else match request.body with
    | .error .tooLarge =>
        (.error (writeError 413 "too_large"
          "paste exceeds the character limit"), db)
    | .error .unreadable =>
        (.error (writeError 400 "bad_request"
          "could not read request body"), db)
    | .ok body =>
        match envelopeOnlyParam request.query with
        | some name =>
            (.error (writeError 400 "bad_request"
              (name ++ " is set in the JSON request body, not the query string")),
              db)
        | none =>
            match decodeBody unmarshal request.contentType body with
            | none =>
                (.error (writeError 400 "bad_json"
                  "request body is not valid JSON"), db)
            | some envelope =>
                match Store.create options env envelope.toStore db with
                | (.ok paste, next) => (.ok (paste, envelope.content), next)
                | (.error error, next) => (.error (fail error), next)

/-- A JSON request that gets as far as the store: its envelope is decoded and
nothing before that turns it away. -/
structure Request.Carries
    (unmarshal : Bytes → Option CreateRequest)
    (request : Request)
    (envelope : CreateRequest) : Prop where
  allowed : request.allowed = true
  json : isJSON request.contentType = true
  noSettings : envelopeOnlyParam request.query = none
  decoded : ∃ body, request.body = .ok body ∧ unmarshal body = some envelope

/-- Such a request is answered by the store. -/
theorem Request.Carries.create_eq
    {unmarshal : Bytes → Option CreateRequest}
    {request : Request}
    {envelope : CreateRequest}
    (carries : request.Carries unmarshal envelope)
    (options : Store.Options)
    (env : Store.Env)
    (db : Store.Database) :
    create unmarshal options request env db =
      match Store.create options env envelope.toStore db with
      | (.ok paste, next) => (.ok (paste, envelope.content), next)
      | (.error error, next) => (.error (fail error), next) := by
  obtain ⟨body, read, decoded⟩ := carries.decoded
  unfold create decodeBody
  simp [carries.allowed, read, carries.noSettings, carries.json, decoded]

end HttpApi
end Haste
