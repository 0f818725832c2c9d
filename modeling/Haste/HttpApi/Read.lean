import Haste.Go.Json
import Haste.HttpApi.Buffered
import Haste.HttpApi.Create
import Haste.Store.Reads

/-!
# Reading a paste over HTTP

The three routes that serve a paste answer its metadata and content as JSON, its
text, or its text as a file.  A response is cached for five minutes, or for the
whole seconds left of the paste's own lifetime if these are fewer.  The texts of
floating-point numbers and of instants are parameters; an instant that no text
stands for makes the JSON body empty.
-/

namespace Haste
namespace HttpApi

open Go

/-- `extensions`: the file extension of a language. -/
def extensions : List (String × String) :=
  [("bash", "sh"), ("shellsession", "sh"), ("powershell", "ps1"),
    ("awk", "awk"), ("vim", "vim"), ("make", "mk"), ("cmake", "cmake"),
    ("docker", "dockerfile"), ("nginx", "conf"), ("apache", "conf"),
    ("terraform", "tf"), ("hcl", "hcl"), ("http", "http"), ("log", "log"),
    ("c", "c"), ("cpp", "cpp"), ("csharp", "cs"), ("objective-c", "m"),
    ("d", "d"), ("go", "go"), ("rust", "rs"), ("zig", "zig"), ("nim", "nim"),
    ("crystal", "cr"), ("v", "v"), ("asm", "asm"), ("verilog", "v"),
    ("wasm", "wat"), ("pascal", "pas"), ("java", "java"), ("kotlin", "kt"),
    ("groovy", "groovy"), ("scala", "scala"), ("clojure", "clj"),
    ("elixir", "ex"), ("erlang", "erl"), ("haskell", "hs"), ("elm", "elm"),
    ("gleam", "gleam"), ("ocaml", "ml"), ("fsharp", "fs"), ("lisp", "lisp"),
    ("scheme", "scm"), ("racket", "rkt"), ("dart", "dart"), ("swift", "swift"),
    ("python", "py"), ("ruby", "rb"), ("perl", "pl"), ("php", "php"),
    ("lua", "lua"), ("r", "r"), ("julia", "jl"), ("tcl", "tcl"),
    ("javascript", "js"), ("jsx", "jsx"), ("typescript", "ts"), ("tsx", "tsx"),
    ("vue", "vue"), ("svelte", "svelte"), ("astro", "astro"), ("html", "html"),
    ("css", "css"), ("less", "less"), ("scss", "scss"), ("xml", "xml"),
    ("json", "json"), ("jsonc", "jsonc"), ("json5", "json5"), ("yaml", "yaml"),
    ("toml", "toml"), ("ini", "ini"), ("properties", "properties"),
    ("dotenv", "env"), ("csv", "csv"), ("sql", "sql"), ("prisma", "prisma"),
    ("graphql", "graphql"), ("proto", "proto"), ("solidity", "sol"),
    ("markdown", "md"), ("latex", "tex"), ("diff", "diff")]

/-- `extensionFor`. -/
def extensionFor (language : Bytes) : Bytes :=
  match extensions.find? fun entry => ascii entry.1 == language with
  | some entry => ascii entry.2
  | none => ascii "txt"

/-- The settings of `config.Config` that the read routes and the layers around
them depend on. -/
structure Config where
  corsOrigins : List Bytes
  baseURL : Bytes
  trustProxy : Bool

/-- The texts `encoding/json` gives to the ratio of two sizes, rounded to two
places, and to an instant. -/
structure Texts where
  ratio : Int → Int → Bytes
  time : Int → Option Bytes

/-- `Server.baseURL`. -/
def baseURL (config : Config) (request : Incoming) : Bytes :=
  if config.baseURL ≠ [] then config.baseURL
  else
    let scheme := if request.tls then ascii "https" else ascii "http"
    let proto := request.header.get "X-Forwarded-Proto"
    let scheme := if config.trustProxy ∧ proto ≠ [] then proto else scheme
    scheme ++ ascii "://" ++ request.host

/-- `pasteResponse`.  The ratio is its text. -/
structure PasteResponse where
  key : Bytes
  url : Bytes
  rawURL : Bytes
  downloadURL : Bytes
  filename : Bytes
  language : Bytes
  title : Bytes
  content : Bytes
  chars : Int
  bytes : Int
  stored : Int
  ratio : Bytes
  createdAt : Int
  expiresAt : Option Int

/-- `Server.describe`, with the content. -/
def describe
    (texts : Texts)
    (base : Bytes)
    (paste : Store.Paste)
    (content : Bytes) : PasteResponse where
  key := paste.code
  url := base ++ ascii "/" ++ paste.code
  rawURL := base ++ ascii "/raw/" ++ paste.code
  downloadURL := base ++ ascii "/download/" ++ paste.code
  filename := paste.code ++ ascii "." ++ extensionFor paste.language
  language := paste.language
  title := paste.title
  content := content
  chars := paste.chars
  bytes := paste.rawBytes
  stored := paste.storedSize
  ratio :=
    if 0 < paste.storedSize then texts.ratio paste.rawBytes paste.storedSize
    else ascii "0"
  createdAt := paste.createdAt
  expiresAt := paste.expiresAt

/-- A field of a JSON object. -/
def field (name : String) (value : Bytes) : Bytes :=
  quote (ascii name) ++ ascii ":" ++ value

/-- A string field that is omitted when it is empty. -/
def optionalField (name : String) (value : Bytes) : List Bytes :=
  if value = [] then [] else [field name (quote value)]

/-- A JSON object, and the newline `Encode` ends it with. -/
def object (fields : List Bytes) : Bytes :=
  ascii "\x7b" ++ (ascii ",").intercalate fields ++ ascii "\x7d\n"

/-- The text of an integer. -/
def number (value : Int) : Bytes := ascii (toString value)

/-- `json.Encoder.Encode` of a `pasteResponse`, which fails on an instant that
has no text. -/
def PasteResponse.encode (texts : Texts) (response : PasteResponse) :
    Option Bytes := do
  let createdAt ← texts.time response.createdAt
  let expiresAt ←
    match response.expiresAt with
    | none => some []
    | some expiresAt => (texts.time expiresAt).map fun text =>
        [field "expiresAt" text]
  return object
    ([field "key" (quote response.key),
      field "url" (quote response.url),
      field "rawUrl" (quote response.rawURL),
      field "downloadUrl" (quote response.downloadURL),
      field "filename" (quote response.filename)] ++
      optionalField "language" response.language ++
      optionalField "title" response.title ++
      optionalField "content" response.content ++
      [field "chars" (number response.chars),
        field "bytes" (number response.bytes),
        field "stored" (number response.stored),
        field "ratio" response.ratio,
        field "createdAt" createdAt] ++ expiresAt)

/-- `cacheSeconds`. -/
def cacheSeconds : Int := 300

/-- The seconds `setCacheControl` lets a paste be cached for. -/
def maxAge (now : Int) (paste : Store.Paste) : Int :=
  match paste.expiresAt with
  | none => cacheSeconds
  | some expiresAt =>
      -- The float of a duration has its whole seconds wherever these are few.
      let left := (expiresAt - now).tdiv second
      if left < cacheSeconds then max left 0 else cacheSeconds

/-- The value of `Cache-Control` for these seconds. -/
def cacheControl (age : Int) : Bytes :=
  if age = 0 then ascii "no-store"
  else ascii "public, max-age=" ++ number age ++ ascii ", immutable"

/-- `setCacheControl`, called at this instant. -/
def setCacheControl (now : Int) (paste : Store.Paste) (header : Header) : Header :=
  header.set "Cache-Control" (cacheControl (maxAge now paste))

/-- `noIndex`. -/
def noIndex (header : Header) : Header :=
  header.set "X-Robots-Tag" (ascii "noindex")

/-- `writeJSON`: nothing follows the header when encoding fails. -/
def writeJSON (header : Header) (status : Nat) (encoded : Option Bytes) :
    Response where
  status := status
  header := header.set "Content-Type" (ascii "application/json; charset=utf-8")
  body := encoded.getD []

/-- An error as it is written. -/
def ErrorResponse.write (response : ErrorResponse) : Response :=
  let header :=
    if response.retryAfter then Header.empty.set "Retry-After" (ascii "1")
    else Header.empty
  writeJSON header response.status
    (some (object [field "error" (quote (ascii response.error)),
      field "message" (quote (ascii response.message))]))

/-- The routes that serve a paste. -/
inductive Route
  | read
  | raw
  | download
  deriving DecidableEq, Repr

/-- `handleRead`. -/
def handleRead
    (config : Config)
    (texts : Texts)
    (now : Int)
    (request : Incoming)
    (paste : Store.Paste)
    (content : Bytes) : Response :=
  writeJSON (setCacheControl now paste (noIndex Header.empty)) 200
    ((describe texts (baseURL config request) paste content).encode texts)

/-- `handleRaw`. -/
def handleRaw (now : Int) (paste : Store.Paste) (content : Bytes) : Response where
  status := 200
  header := setCacheControl now paste
    ((((noIndex Header.empty).set "Content-Type"
      (ascii "text/plain; charset=utf-8")).set "Content-Security-Policy"
      (ascii "default-src 'none'; style-src 'unsafe-inline'; sandbox")).set
      "Content-Disposition" (ascii "inline"))
  body := content

/-- `handleDownload`. -/
def handleDownload
    (now : Int)
    (paste : Store.Paste)
    (content : Bytes) : Response where
  status := 200
  header := setCacheControl now paste
    ((((noIndex Header.empty).set "Content-Type"
      (ascii "text/plain; charset=utf-8")).set "Content-Disposition"
      (ascii "attachment; filename=\"" ++ paste.code ++ ascii "." ++
        extensionFor paste.language ++ ascii "\"")).set
      "Content-Security-Policy" (ascii "default-src 'none'; sandbox"))
  body := content

/-- The handler of a route, given what `Get` has answered. -/
def Route.handle
    (route : Route)
    (config : Config)
    (texts : Texts)
    (now : Int)
    (request : Incoming)
    (answer : Except Store.Error (Store.Paste × Bytes)) : Response :=
  match answer with
  | .error error => (fail error).write
  | .ok (paste, content) =>
      match route with
      | .read => handleRead config texts now request paste content
      | .raw => handleRaw now paste content
      | .download => handleDownload now paste content

/-- The settings of a server that was given none, for concrete runs. -/
def Config.unset : Config where
  corsOrigins := [ascii "*"]
  baseURL := []
  trustProxy := false

/-- The texts of a paste of one byte, stored in ten at 100 seconds, for concrete
runs. -/
def Texts.small : Texts where
  ratio _ _ := ascii "0.1"
  time _ := some (ascii "\"1970-01-01T00:01:40Z\"")

/-- A plain request for the first paste. -/
def Incoming.first : Incoming where
  method := ascii "GET"
  code := ascii "0"
  host := ascii "localhost:8080"
  tls := false
  header := Header.empty

/-- A paste that is served is answered 200 with this `Cache-Control`. -/
theorem Route.handle_ok
    (route : Route)
    (config : Config)
    (texts : Texts)
    (now : Int)
    (request : Incoming)
    (paste : Store.Paste)
    (content : Bytes) :
    (route.handle config texts now request (.ok (paste, content))).status = 200 ∧
      (route.handle config texts now request (.ok (paste, content))).header.values
        "Cache-Control" = [cacheControl (maxAge now paste)] := by
  cases route <;>
    simp [Route.handle, handleRead, handleRaw, handleDownload, writeJSON,
      setCacheControl]

/-- No error is answered with a `Cache-Control`. -/
theorem Route.handle_error
    (route : Route)
    (config : Config)
    (texts : Texts)
    (now : Int)
    (request : Incoming)
    (error : Store.Error) :
    (route.handle config texts now request (.error error)).header.values
      "Cache-Control" = [] := by
  simp only [Route.handle, ErrorResponse.write, writeJSON]
  split <;> simp

end HttpApi
end Haste
