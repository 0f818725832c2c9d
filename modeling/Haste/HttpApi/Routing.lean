import Haste.Go.Paths
import Haste.Id.Codes

/-!
# Which handler answers a path

The mux unescapes a path segment by segment and looks for the pattern it matches.
Everything that no other pattern claims goes to the frontend, which is how a code
right below the root gets there: of the patterns only one could claim it, and the
word of that pattern is reserved.
-/

namespace Haste
namespace HttpApi

open Go

/-- The handlers of `Server.Handler`. -/
inductive Endpoint
  | health
  | config
  | stats
  | create
  | read
  | raw
  | download
  | legacyCreate
  | legacyRead
  | ui
  deriving DecidableEq, Repr

/-- A segment of a pattern. -/
inductive PatternSegment
  | literal (text : String)
  /-- `{code}` -/
  | code

/-- A pattern of the mux, and the handler it is registered for. -/
structure Pattern where
  method : String
  segments : List PatternSegment
  /-- Whether the pattern ends in a slash, and matches every path below it. -/
  below : Bool
  endpoint : Endpoint

/-- The patterns of `Server.Handler`.  The last one is the least specific. -/
def patterns : List Pattern :=
  [⟨"GET", [.literal "healthz"], false, .health⟩,
    ⟨"GET", [.literal "api", .literal "config"], false, .config⟩,
    ⟨"GET", [.literal "api", .literal "stats"], false, .stats⟩,
    ⟨"POST", [.literal "api", .literal "pastes"], false, .create⟩,
    ⟨"GET", [.literal "api", .literal "pastes", .code], false, .read⟩,
    ⟨"GET", [.literal "raw", .code], false, .raw⟩,
    ⟨"GET", [.literal "download", .code], false, .download⟩,
    ⟨"POST", [.literal "documents"], false, .legacyCreate⟩,
    ⟨"GET", [.literal "documents", .code], false, .legacyRead⟩,
    ⟨"GET", [], true, .ui⟩]

/-- A segment as the mux compares it: unescaped, if its escapes are whole. -/
def muxSegment (text : Bytes) : Bytes := (pathUnescape text).getD text

/-- The segments between the slashes of a path.  A slash at the end is a segment
of its own. -/
def muxSegmentsFrom : List Bytes → List Bytes
  | [] => []
  | [[]] => [ascii "/"]
  | text :: rest => muxSegment text :: muxSegmentsFrom rest

/-- The segments of a path that starts with a slash. -/
def muxSegments (path : Bytes) : List Bytes :=
  muxSegmentsFrom ((split path 0x2F).drop 1)

namespace Pattern

/-- What a pattern captures of a path, or none if it does not match. -/
def captureFrom (below : Bool) : List PatternSegment → List Bytes → Option Bytes
  | [], [] => some []
  | [], _ :: _ => if below then some [] else none
  | .literal text :: pattern, segment :: rest =>
      if segment = ascii text then captureFrom below pattern rest else none
  | .code :: pattern, segment :: rest =>
      if segment = ascii "/" then none
      else (captureFrom below pattern rest).map fun _ => segment
  | _ :: _, [] => none

/-- A pattern for `GET` matches `HEAD` as well. -/
def accepts (pattern : Pattern) (method : Bytes) : Bool :=
  method == ascii pattern.method ||
    (method == ascii "HEAD" && pattern.method == "GET")

/-- The handler of a pattern and the code it captures, if it matches. -/
def route
    (method : Bytes)
    (segments : List Bytes)
    (pattern : Pattern) : Option (Endpoint × Bytes) :=
  if pattern.accepts method then
    (captureFrom pattern.below pattern.segments segments).map
      fun code => (pattern.endpoint, code)
  else none

end Pattern

/-- The path `net/http` redirects to what is not clean: as `path.Clean` has it,
with the slash at its end if it had one. -/
def cleanPath (path : Bytes) : Bytes :=
  if path = [] then ascii "/"
  else
    let rooted := if hasPrefix path (ascii "/") then path else ascii "/" ++ path
    let clean := pathClean rooted
    if hasSuffix rooted (ascii "/") ∧ clean ≠ ascii "/" then clean ++ ascii "/"
    else clean

/-- What the mux makes of a request. -/
inductive Routed
  | handled (endpoint : Endpoint) (code : Bytes)
  /-- The path was not clean. -/
  | redirected (path : Bytes)
  /-- No pattern with the method. -/
  | unmatched
  deriving DecidableEq, Repr

/-- The mux.  The methods of the patterns and `HEAD` are all it matches. -/
def mux (method path : Bytes) : Routed :=
  if method ≠ ascii "CONNECT" ∧ cleanPath path ≠ path then
    .redirected (cleanPath path)
  else match patterns.findSome? (Pattern.route method (muxSegments path)) with
    | some (endpoint, code) => .handled endpoint code
    | none => .unmatched

example : mux (ascii "GET") (ascii "/raw/0/x") = .handled .ui [] := by decide +kernel

example : mux (ascii "GET") (ascii "/r%61w/0") = .handled .raw (ascii "0") := by
  decide +kernel

example : mux (ascii "POST") (ascii "/documents/") = .unmatched := by decide +kernel

/-- What the mux hands to a handler matches one of its patterns. -/
theorem route_of_mux
    {method path code : Bytes}
    {endpoint : Endpoint}
    (routed : mux method path = .handled endpoint code) :
    ∃ pattern ∈ patterns, pattern.endpoint = endpoint ∧
      pattern.accepts method = true ∧
      Pattern.captureFrom pattern.below pattern.segments (muxSegments path) =
        some code := by
  unfold mux at routed
  split at routed
  · cases routed
  · split at routed
    case h_2 => cases routed
    case h_1 found code' isFound =>
      cases routed
      obtain ⟨pattern, listed, matched⟩ := List.exists_of_findSome?_eq_some isFound
      unfold Pattern.route at matched
      split at matched
      case isFalse => cases matched
      case isTrue accepts =>
        obtain ⟨captured, isCaptured, same⟩ := Option.map_eq_some_iff.mp matched
        cases same
        exact ⟨pattern, listed, rfl, accepts, isCaptured⟩

/-- The handlers that store a paste are asked by `POST` alone. -/
theorem method_of_mux_create
    {method path code : Bytes}
    {endpoint : Endpoint}
    (isCreate : endpoint = .create ∨ endpoint = .legacyCreate)
    (routed : mux method path = .handled endpoint code) :
    method = ascii "POST" := by
  obtain ⟨pattern, listed, isEndpoint, accepts, -⟩ := route_of_mux routed
  have isPost : patterns.all (fun pattern =>
      decide (pattern.method = "POST") ||
        decide (pattern.endpoint ≠ .create ∧ pattern.endpoint ≠ .legacyCreate)) =
      true := by
    decide
  have either := List.all_eq_true.mp isPost pattern listed
  rw [Bool.or_eq_true, decide_eq_true_eq, decide_eq_true_eq, isEndpoint] at either
  have posts : pattern.method = "POST" :=
    either.resolve_right fun others => isCreate.elim others.1 others.2
  simpa [Pattern.accepts, posts] using accepts

/-! ## Paths of separate segments -/

theorem muxSegmentsFrom_of_ne_nil
    {segments : List Bytes}
    (nonempty : ∀ segment ∈ segments, segment ≠ []) :
    muxSegmentsFrom segments = segments.map muxSegment := by
  induction segments with
  | nil => rfl
  | cons segment rest inductionHypothesis =>
      obtain ⟨here, later⟩ := List.forall_mem_cons.mp nonempty
      rw [muxSegmentsFrom, inductionHypothesis later, List.map_cons]
      exact fun nothing => absurd nothing here

/-- A plain segment is compared as it is. -/
theorem muxSegment_of_plain {segment : Bytes} (plain : Plain segment) :
    muxSegment segment = segment := by
  rw [muxSegment, pathUnescape_of_notMem plain.noPercent]
  rfl

/-- The mux takes such a path segment by segment. -/
theorem mux_joinPath
    (method : Bytes)
    {segments : List Bytes}
    (separate : ∀ segment ∈ segments, Separate segment)
    (nonempty : segments ≠ []) :
    mux method (joinPath segments) =
      match patterns.findSome?
          (Pattern.route method (segments.map muxSegment)) with
      | some (endpoint, code) => .handled endpoint code
      | none => .unmatched := by
  have isClean := pathClean_joinPath separate nonempty
  have noSlash := hasSuffix_joinPath separate
  obtain ⟨first, rest, rfl⟩ := List.exists_cons_of_ne_nil nonempty
  have rooted : hasPrefix (joinPath (first :: rest)) (ascii "/") = true := rfl
  have some : joinPath (first :: rest) ≠ [] := List.cons_ne_nil _ _
  have clean : cleanPath (joinPath (first :: rest)) = joinPath (first :: rest) := by
    simp [cleanPath, some, rooted, isClean, noSlash]
  have parts : muxSegments (joinPath (first :: rest)) =
      (first :: rest).map muxSegment := by
    rw [muxSegments, split_joinPath fun segment listed =>
      (separate segment listed).noSlash]
    exact muxSegmentsFrom_of_ne_nil fun segment listed =>
      (separate segment listed).ne_nil
  rw [mux, if_neg (fun unclean => unclean.2 clean), parts]

/-! ## Codes in paths -/

section Codes

variable {code : Bytes} (valid : Id.valid code = true)
include valid

/-- A code stands in a path as it is. -/
theorem plain_of_valid : Plain code := by
  obtain ⟨nonempty, -, base62⟩ := (Id.valid_iff code).mp valid
  have without : ∀ byte : UInt8, byte ∉ Id.alphabet → byte ∉ code :=
    fun byte notDigit listed => notDigit (base62 byte listed)
  have noDot := without 0x2E (by decide)
  refine ⟨⟨⟨?_, ?_⟩, without 0x2F (by decide)⟩, without 0x25 (by decide)⟩
  · unfold stays
    rw [Bool.or_eq_false_iff, beq_eq_false_iff_ne, beq_eq_false_iff_ne]
    refine ⟨?_, ?_⟩
    · rintro rfl
      exact absurd nonempty (by decide)
    · rintro rfl
      exact noDot (by decide)
  · rintro rfl
    exact noDot (by decide)

theorem code_ne_slash : code ≠ ascii "/" := by
  rintro rfl
  exact (plain_of_valid valid).noSlash (by decide)

end Codes

/-- The addresses of a paste. -/
inductive Link
  | page
  | read
  | raw
  | download
  | legacyRead
  deriving DecidableEq, Repr

namespace Link

/-- What stands before the code in the path of an address. -/
def words : Link → List Bytes
  | .page => []
  | .read => [ascii "api", ascii "pastes"]
  | .raw => [ascii "raw"]
  | .download => [ascii "download"]
  | .legacyRead => [ascii "documents"]

/-- The path of an address. -/
def path (link : Link) (code : Bytes) : Bytes := joinPath (link.words ++ [code])

/-- The handler an address is meant for. -/
def endpoint : Link → Endpoint
  | .page => .ui
  | .read => .read
  | .raw => .raw
  | .download => .download
  | .legacyRead => .legacyRead

/-- What the mux captures for the handler.  The frontend looks at the path. -/
def captured (link : Link) (code : Bytes) : Bytes :=
  match link with
  | .page => []
  | _ => code

theorem plain_of_mem_words
    {link : Link}
    {word : Bytes}
    (listed : word ∈ link.words) : Plain word := by
  apply plain_of_valid
  have all : ∀ link : Link, link.words.all Id.valid = true := by
    intro link
    cases link <;> decide
  exact List.all_eq_true.mp (all link) word listed

theorem separate_of_mem_path
    {link : Link}
    {segment : Bytes}
    (separate : Separate segment) :
    ∀ part ∈ link.words ++ [segment], Separate part := by
  intro part listed
  rcases List.mem_append.mp listed with isWord | isSegment
  · exact (plain_of_mem_words isWord).toSeparate
  · rw [List.mem_singleton.mp isSegment]
    exact separate

theorem map_muxSegment_words (link : Link) :
    link.words.map muxSegment = link.words := by
  rw [List.map_congr_left fun _ listed =>
    muxSegment_of_plain (plain_of_mem_words listed), List.map_id']

/-- Every address of a code that is not reserved reaches its handler. -/
theorem mux_path
    {code : Bytes}
    (valid : Id.valid code = true)
    (unreserved : code ≠ ascii "healthz")
    (link : Link) :
    mux (ascii "GET") (link.path code) =
      .handled link.endpoint (link.captured code) := by
  have notSlash := code_ne_slash valid
  have plain := plain_of_valid valid
  have whole : [code].map muxSegment = [code] := by
    rw [List.map_singleton, muxSegment_of_plain plain]
  rw [path, mux_joinPath _ (separate_of_mem_path plain.toSeparate) (by simp),
    List.map_append, map_muxSegment_words, whole]
  -- The patterns before the right one differ in a word or in the length.
  cases link <;>
    simp +decide [words, endpoint, captured, patterns, Pattern.route,
      Pattern.captureFrom, unreserved, notSlash]

/-- `GET /api/pastes/{code}` captures any one segment, unescaped, but a slash. -/
theorem mux_path_read
    {segment : Bytes}
    (separate : Separate segment)
    (notSlash : muxSegment segment ≠ ascii "/") :
    mux (ascii "GET") (Link.read.path segment) =
      .handled .read (muxSegment segment) := by
  rw [path, mux_joinPath _ (separate_of_mem_path separate) (by simp),
    List.map_append, map_muxSegment_words, List.map_singleton]
  simp +decide [words, patterns, Pattern.route, Pattern.captureFrom, notSlash]

end Link

end HttpApi
end Haste
