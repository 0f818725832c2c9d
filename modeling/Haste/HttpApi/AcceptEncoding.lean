import Haste.Go.Digits
import Haste.HttpApi.Revalidation

/-!
# Which codings a client accepts

`Accept-Encoding` is a comma-separated list of codings, each with an optional
weight; a star stands for every coding that is not listed.  `gzipped` only looks
for the letters `gzip` in it, so it compresses also for a client that gives gzip
no weight, and for one that names a coding which merely contains the letters.
-/

namespace Haste
namespace HttpApi

open Go

/-! ## The grammar of the header -/

/-- `OWS` of the HTTP grammar. -/
def isOptionalSpace (byte : UInt8) : Bool := byte == 0x20 || byte == 0x09

/-- `tchar` of the HTTP grammar. -/
def isTokenByte (byte : UInt8) : Bool :=
  isDigit byte || (0x41 ≤ byte && byte ≤ 0x5A) ||
    (0x61 ≤ byte && byte ≤ 0x7A) || (ascii "!#$%&*+-.^_|~").contains byte ||
    byte == 0x27 || byte == 0x60

/-- Up to three decimal places, in thousandths. -/
def thousandths (digits : Bytes) : Nat :=
  digits.foldl (fun value digit => 10 * value + (digit.toNat - 0x30)) 0 *
    10 ^ (3 - digits.length)

/-- `qvalue` of the HTTP grammar, in thousandths. -/
def qvalue : Bytes → Option Nat
  | [0x30] => some 0
  | [0x31] => some 1000
  | 0x30 :: 0x2E :: places =>
      if places.length ≤ 3 ∧ places.all isDigit = true then
        some (thousandths places)
      else none
  | 0x31 :: 0x2E :: places =>
      if places.length ≤ 3 ∧ places.all (· == 0x30) = true then some 1000
      else none
  | _ => none

/-- The weight after the name of a coding, one if there is none. -/
def weight (text : Bytes) : Option Nat :=
  match text.dropWhile isOptionalSpace with
  | [] => some 1000
  | 0x3B :: rest =>
      match rest.dropWhile isOptionalSpace with
      | 0x71 :: 0x3D :: value => qvalue value
      | 0x51 :: 0x3D :: value => qvalue value
      | _ => none
  | _ => none

/-- A coding with its weight. -/
def coding (element : Bytes) : Option (Bytes × Nat) :=
  let element := (element.dropWhile isOptionalSpace).rdropWhile isOptionalSpace
  let name := element.takeWhile isTokenByte
  if name = [] then none
  else (weight (element.drop name.length)).map fun weight => (name, weight)

/-- The codings of a value that follows the grammar.  Elements may be empty. -/
def codings (value : Bytes) : Option (List (Bytes × Nat)) :=
  let elements := (split value 0x2C).filter fun element =>
    !element.all isOptionalSpace
  elements.mapM coding

/-- The weight a value gives to gzip, in thousandths: its own, else that of the
star.  A value that does not follow the grammar gives it none. -/
def gzipWeight (value : Bytes) : Nat :=
  let listed := (codings value).getD []
  match listed.find? fun entry => equalFold entry.1 (ascii "gzip") with
  | some entry => entry.2
  | none =>
      match listed.find? fun entry => entry.1 == ascii "*" with
      | some entry => entry.2
      | none => 0

example : gzipWeight (ascii "br, GZIP ;q=0.5,, *;q=0") = 500 := by
  decide +kernel

example : gzipWeight (ascii "xgzip, deflate;q=0.9") = 0 := by decide +kernel

/-! ## What `gzipped` does with it -/

/-- A response that is compressed for a client that seems to ask for it: it is
sent in full, and compression applies and pays. -/
structure Compresses
    (encoders : Encoders)
    (outer : Header)
    (request : Incoming)
    (output : Response) : Prop where
  full : ¬Revalidates encoders request output
  long : gzipMinSize ≤ output.body.length
  plain : (outer.merge output.header).get "Content-Encoding" = []
  type : compressible ((outer.merge output.header).get "Content-Type") = true
  pays : (encoders.gzip output.body).length < output.body.length

/-- The coding a response is sent with suits the client: gzip only with a
positive weight, and otherwise the bytes as they are, if any are sent. -/
def Response.Suits (response : Response) (request : Incoming) (body : Bytes) :
    Prop :=
  (response.header.get "Content-Encoding" = ascii "gzip" →
    0 < gzipWeight (request.header.get "Accept-Encoding")) ∧
  (gzipWeight (request.header.get "Accept-Encoding") = 0 →
    response.body = body ∨ response.body = [])

section

variable
  {encoders : Encoders}
  {outer : Header}
  {request : Incoming}
  {output : Response}

theorem wantsGzip_iff (header : Header) (body : Bytes) :
    Encoders.wantsGzip request header body = true ↔
      gzipMinSize ≤ body.length ∧
        contains (request.header.get "Accept-Encoding") (ascii "gzip") = true ∧
        header.get "Content-Encoding" = [] ∧
        compressible (header.get "Content-Type") = true := by
  unfold Encoders.wantsGzip
  simp only [Bool.not_or, Bool.and_eq_true, Bool.not_eq_true',
    decide_eq_false_iff_not, not_lt, Bool.not_eq_false', bne_eq_false_iff_eq,
    and_assoc]

/-- A body is compressed exactly when that is wanted and pays. -/
theorem gzipped_of_pays
    {header : Header}
    {body : Bytes}
    (wanted : Encoders.wantsGzip request
      (header.add "Vary" (ascii "Accept-Encoding")) body = true)
    (pays : (encoders.gzip body).length < body.length) :
    encoders.gzipped request header body =
      (Encoders.gzipHeader (header.add "Vary" (ascii "Accept-Encoding")),
        some (encoders.gzip body)) := by
  unfold Encoders.gzipped
  rw [if_neg (by simp [wanted]), if_neg (by omega)]

theorem gzipped_of_not_pays
    {header : Header}
    {body : Bytes}
    (unwanted : ¬(Encoders.wantsGzip request
        (header.add "Vary" (ascii "Accept-Encoding")) body = true ∧
      (encoders.gzip body).length < body.length)) :
    encoders.gzipped request header body =
      (header.add "Vary" (ascii "Accept-Encoding"), none) := by
  unfold Encoders.gzipped
  by_cases wanted : Encoders.wantsGzip request
      (header.add "Vary" (ascii "Accept-Encoding")) body = true
  · have larger : body.length ≤ (encoders.gzip body).length := by
      by_contra smaller
      exact unwanted ⟨wanted, by omega⟩
    rw [if_neg (by simp [wanted]), if_pos larger]
  · rw [if_pos (by simpa using wanted)]

theorem respond_values_of_ne
    {name : String}
    (notLength : name ≠ "Content-Length")
    (status : Nat)
    (header : Header)
    (body : Bytes) :
    (respond encoders request status header body).header.values name =
      (encoders.gzipped request header body).1.values name :=
  Header.values_set_of_ne _ _ _ _ notLength

/-- A response that is compressed at the sight of the letters. -/
theorem buffered_of_compresses
    (compresses : Compresses encoders outer request output)
    (letters : contains (request.header.get "Accept-Encoding")
      (ascii "gzip") = true) :
    (buffered encoders outer request output).header.get "Content-Encoding" =
      ascii "gzip" := by
  have encoding : ((taggedHeader encoders outer request output).add "Vary"
      (ascii "Accept-Encoding")).get "Content-Encoding" = [] := by
    rw [Header.get, Header.values_add_of_ne _ _ _ _ (by decide),
      taggedHeader_values_of_ne (by decide)]
    exact compresses.plain
  have type : ((taggedHeader encoders outer request output).add "Vary"
      (ascii "Accept-Encoding")).get "Content-Type" =
        (outer.merge output.header).get "Content-Type" := by
    rw [Header.get, Header.values_add_of_ne _ _ _ _ (by decide),
      taggedHeader_values_of_ne (by decide)]
    rfl
  have wanted := (wantsGzip_iff
    ((taggedHeader encoders outer request output).add "Vary"
      (ascii "Accept-Encoding")) output.body).mpr
    ⟨compresses.long, letters, encoding, by rw [type]; exact compresses.type⟩
  rw [buffered_of_not_revalidates compresses.full, Header.get,
    respond_values_of_ne (by decide),
    gzipped_of_pays wanted compresses.pays, gzipHeader_encoding]
  rfl

/-- Any other response is sent as it is, with the coding its handler has
given it. -/
theorem buffered_of_not_compresses
    (asItIs : ¬(Compresses encoders outer request output ∧
      contains (request.header.get "Accept-Encoding") (ascii "gzip") = true)) :
    (buffered encoders outer request output).header.get "Content-Encoding" =
        (outer.merge output.header).get "Content-Encoding" ∧
      ((buffered encoders outer request output).body = output.body ∨
        (buffered encoders outer request output).body = []) := by
  by_cases revalidates : Revalidates encoders request output
  · constructor
    · rw [Header.get, revalidated_values revalidates (by decide) (by decide),
        taggedHeader_values_of_ne (by decide)]
      rfl
    · rw [buffered_of_revalidates revalidates]
      exact Or.inr rfl
  · have unpaid : ¬(Encoders.wantsGzip request
          ((taggedHeader encoders outer request output).add "Vary"
            (ascii "Accept-Encoding")) output.body = true ∧
        (encoders.gzip output.body).length < output.body.length) := by
      rintro ⟨wanted, pays⟩
      obtain ⟨long, letters, plain, type⟩ := (wantsGzip_iff _ _).mp wanted
      rw [Header.get, Header.values_add_of_ne _ _ _ _ (by decide),
        taggedHeader_values_of_ne (by decide)] at plain type
      exact asItIs ⟨⟨revalidates, long, plain, type, pays⟩, letters⟩
    have same := gzipped_of_not_pays unpaid
    rw [buffered_of_not_revalidates revalidates]
    constructor
    · rw [Header.get, respond_values_of_ne (by decide), same,
        Header.values_add_of_ne _ _ _ _ (by decide),
        taggedHeader_values_of_ne (by decide)]
      rfl
    · unfold respond
      rw [same]
      by_cases head : request.method = ascii "HEAD"
      · exact Or.inr (if_pos head)
      · exact Or.inl (if_neg head)

/-- **Codings.**  A response suits the client if and only if its value gives gzip
a positive weight, or the handler has not compressed the response itself and
either the value does not hold the letters or the response is not one that is
compressed. -/
theorem suits_iff
    (encoders : Encoders)
    (outer : Header)
    (request : Incoming)
    (output : Response) :
    (buffered encoders outer request output).Suits request output.body ↔
      0 < gzipWeight (request.header.get "Accept-Encoding") ∨
      ((outer.merge output.header).get "Content-Encoding" ≠ ascii "gzip" ∧
        ¬(Compresses encoders outer request output ∧
          contains (request.header.get "Accept-Encoding")
            (ascii "gzip") = true)) := by
  constructor
  · rintro ⟨suits, -⟩
    by_contra refused
    rw [not_or] at refused
    obtain ⟨noWeight, sent⟩ := refused
    by_cases compressed : Compresses encoders outer request output ∧
        contains (request.header.get "Accept-Encoding") (ascii "gzip") = true
    · exact noWeight (suits (buffered_of_compresses compressed.1 compressed.2))
    · have preset : (outer.merge output.header).get "Content-Encoding" =
          ascii "gzip" := by
        by_contra other
        exact sent ⟨other, compressed⟩
      have kept := (buffered_of_not_compresses compressed).1
      exact noWeight (suits (kept.trans preset))
  · rintro (accepted | ⟨notPreset, asItIs⟩)
    · exact ⟨fun _ => accepted, fun none => absurd none accepted.ne'⟩
    · obtain ⟨sameEncoding, identity⟩ := buffered_of_not_compresses asItIs
      refine ⟨fun gzip => ?_, fun _ => identity⟩
      rw [sameEncoding] at gzip
      exact absurd gzip notPreset

end

/-- The letter `a`, 512 times. -/
def letters : Bytes := List.replicate 512 0x61

/-- What gzip makes of it: a literal, two copies of it and an empty last
block. -/
def lettersFrame : Bytes :=
  [0x1f, 0x8b, 0x08, 0x00, 0x00, 0x00, 0x00, 0x00, 0x02, 0xff, 0x4a, 0x1c, 0x05,
    0x23, 0x1a, 0x00, 0x02, 0x00, 0x00, 0xff, 0xff, 0x51, 0x70, 0x51, 0xf9, 0x00,
    0x02, 0x00, 0x00]

/-- The hash and the gzip frame of that text; any other body is put into a frame
that is longer. -/
def Encoders.letters : Encoders where
  sum256 _ := #v[0x47, 0x1b, 0xe6, 0x55, 0x8b, 0x66, 0x5e, 0x4f, 0x6d, 0xd4, 0x9f,
    0x11, 0x84, 0x81, 0x4d, 0x14, 0x91, 0xb0, 0x31, 0x5d, 0x46, 0x6b, 0xee, 0xa7,
    0x68, 0xc1, 0x53, 0xcc, 0x55, 0x00, 0xc8, 0x36]
  gzip body :=
    if body = HttpApi.letters then lettersFrame else List.replicate 20 0 ++ body
  gunzip frame :=
    if frame = lettersFrame then some HttpApi.letters else some (frame.drop 20)
  gunzip_gzip body := by
    by_cases same : body = HttpApi.letters
    · rw [if_pos same, if_pos rfl, same]
    · have other : List.replicate 20 0 ++ body ≠ lettersFrame :=
        fun frame => absurd (List.cons.inj frame).1 (by decide)
      rw [if_neg same, if_neg other]
      rfl

/-- The text as a handler has written it. -/
def Response.letters : Response :=
  { Response.small with body := HttpApi.letters }

/-- A client with this `Accept-Encoding`. -/
def Incoming.accepting (value : String) : Incoming :=
  { Incoming.first with
    header := Header.empty.set "Accept-Encoding" (ascii value) }

/-- The text is sent compressed to a client that excludes gzip, and to one that
accepts another coding only. -/
theorem gzip_sent_unaccepted :
    (∀ value ∈ ["gzip;q=0", "xgzip"],
      ¬(buffered .letters .empty (.accepting value) .letters).Suits
        (.accepting value) letters) ∧
    (buffered .letters .empty (.accepting "gzip;q=0") .letters).body =
      lettersFrame := by
  refine ⟨?_, by decide +kernel⟩
  rintro value listed ⟨suits, -⟩
  rcases List.mem_pair.mp listed with rfl | rfl
  · exact absurd (suits (by decide +kernel)) (by decide +kernel)
  · exact absurd (suits (by decide +kernel)) (by decide +kernel)

end HttpApi
end Haste
