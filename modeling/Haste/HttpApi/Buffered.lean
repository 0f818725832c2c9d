import Haste.Go.Header

/-!
# Buffered responses

`buffered` runs a handler against a response in memory.  A successful read then
gets an entity tag, the hash of its body, and is answered 304 if the client
names the tag.  Every other response is compressed when the client asks for it
and that makes it smaller.  SHA-256 and gzip are parameters, of which the one
thing known is that gzip is undone by its decoder.
-/

namespace Haste
namespace HttpApi

open Go

/-- What the read handlers and the layers around them read of an
`http.Request`. -/
structure Incoming where
  method : Bytes
  /-- `r.PathValue("code")` -/
  code : Bytes
  host : Bytes
  /-- Whether `r.TLS` is set. -/
  tls : Bool
  header : Header

/-- A response as it was written.  The status of one that was never written to
is zero. -/
structure Response where
  status : Nat
  header : Header
  body : Bytes

/-- The status a recorded response stands for. -/
def Response.sentStatus (response : Response) : Nat :=
  if response.status = 0 then 200 else response.status

/-- SHA-256, and gzip with its decoder. -/
structure Encoders where
  sum256 : Bytes → Vector UInt8 32
  gzip : Bytes → Bytes
  gunzip : Bytes → Option Bytes
  gunzip_gzip : ∀ body, gunzip (gzip body) = some body

/-- The digits of `base64.RawURLEncoding`. -/
def base64URLDigits : Bytes :=
  ascii "ABCDEFGHIJKLMNOPQRSTUVWXYZabcdefghijklmnopqrstuvwxyz0123456789-_"

/-- The digit of a value below 64. -/
def base64URLDigit (value : Nat) : UInt8 := base64URLDigits.getD value 0x41

/-- `base64.RawURLEncoding.EncodeToString`. -/
def base64RawURL : Bytes → Bytes
  | [] => []
  | [first] =>
      [base64URLDigit (first.toNat / 4),
        base64URLDigit (first.toNat % 4 * 16)]
  | [first, second] =>
      [base64URLDigit (first.toNat / 4),
        base64URLDigit (first.toNat % 4 * 16 + second.toNat / 16),
        base64URLDigit (second.toNat % 16 * 4)]
  | first :: second :: third :: rest =>
      base64URLDigit (first.toNat / 4) ::
        base64URLDigit (first.toNat % 4 * 16 + second.toNat / 16) ::
        base64URLDigit (second.toNat % 16 * 4 + third.toNat / 64) ::
        base64URLDigit (third.toNat % 64) :: base64RawURL rest

/-- `gzipMinSize`. -/
def gzipMinSize : Nat := 512

/-- `compressible`. -/
def compressible (contentType : Bytes) : Bool :=
  let mediaType := trimSpace (before 0x3B contentType)
  hasPrefix mediaType (ascii "text/") ||
    mediaType == ascii "application/json" ||
    mediaType == ascii "application/javascript" ||
    mediaType == ascii "image/svg+xml"

namespace Encoders

variable (encoders : Encoders)

/-- `etagFor`. -/
def etagFor (body : Bytes) : Bytes :=
  ascii "\"" ++ base64RawURL ((encoders.sum256 body).toList.take 12) ++ ascii "\""

/-- Whether `gzipped` compresses a body at all. -/
def wantsGzip (request : Incoming) (header : Header) (body : Bytes) : Bool :=
  !(decide (body.length < gzipMinSize) ||
    !contains (request.header.get "Accept-Encoding") (ascii "gzip") ||
    header.get "Content-Encoding" != [] ||
    !compressible (header.get "Content-Type"))

/-- The header of a compressed body: the tag, which names other bytes, becomes
weak. -/
def gzipHeader (header : Header) : Header :=
  let encoded := header.set "Content-Encoding" (ascii "gzip")
  let tag := encoded.get "Etag"
  if tag ≠ [] ∧ hasPrefix tag (ascii "W/") = false then
    encoded.set "Etag" (ascii "W/" ++ tag)
  else encoded

/-- `gzipped`: the header, and the compressed body if there is one. -/
def gzipped
    (request : Incoming)
    (header : Header)
    (body : Bytes) : Header × Option Bytes :=
  let header := header.add "Vary" (ascii "Accept-Encoding")
  if wantsGzip request header body = false then (header, none)
  else
    let encoded := encoders.gzip body
    if body.length ≤ encoded.length then (header, none)
    else (gzipHeader header, some encoded)

end Encoders

/-- `etagMatches`. -/
def etagMatches (ifNoneMatch tag : Bytes) : Bool :=
  if ifNoneMatch = [] then false
  else
    let tag := trimPrefix tag (ascii "W/")
    (split ifNoneMatch 0x2C).any fun candidate =>
      let candidate := trimSpace candidate
      candidate == ascii "*" || trimPrefix candidate (ascii "W/") == tag

/-- A request that may be answered from a cache. -/
def Incoming.isRead (request : Incoming) : Bool :=
  request.method == ascii "GET" || request.method == ascii "HEAD"

/-- The response written after the tag: compressed or not, and without the body
for `HEAD`. -/
def respond
    (encoders : Encoders)
    (request : Incoming)
    (status : Nat)
    (header : Header)
    (body : Bytes) : Response :=
  let sent := encoders.gzipped request header body
  let body := sent.2.getD body
  { status := status
    header := sent.1.set "Content-Length" (itoa body.length)
    body := if request.method = ascii "HEAD" then [] else body }

/-- `buffered`: what is sent for a handler's output.  The header holds what the
layers around it have set. -/
def buffered
    (encoders : Encoders)
    (outer : Header)
    (request : Incoming)
    (output : Response) : Response :=
  let header := outer.merge output.header
  if output.sentStatus = 200 ∧ request.isRead = true then
    let tag := encoders.etagFor output.body
    let header := header.set "Etag" tag
    if etagMatches (request.header.get "If-None-Match") tag then
      { status := 304
        header := (header.del "Content-Type").del "Content-Length"
        body := [] }
    else respond encoders request output.sentStatus header output.body
  else respond encoders request output.sentStatus header output.body

end HttpApi
end Haste
