import Haste.Go.Query

/-!
# Slash-separated paths

The path of a request is unescaped segment by segment, and cleaned of the
segments that say nothing: empty ones, a single dot, and two dots with what they
take back.  A rooted path never leads above its root.
-/

namespace Haste
namespace Go

/-! ## Escapes -/

/-- As in a query string, but a plus sign stands for itself. -/
def pathStep : Bytes → Option (UInt8 × Nat)
  | 0x2B :: _ => some (0x2B, 1)
  | text => percentStep text

/-- `url.PathUnescape`, or none if an escape is broken. -/
def pathUnescape (text : Bytes) : Option Bytes := Scanning.scan pathStep text

example : pathUnescape (ascii "a%2Fb+c") = some (ascii "a/b+c") := by decide +kernel

/-- A byte that is no percent sign stands for itself. -/
theorem pathStep_of_ne
    {byte : UInt8}
    (plain : byte ≠ 0x25)
    (rest : Bytes) :
    pathStep (byte :: rest) = some (byte, 1) := by
  by_cases plus : byte = 0x2B
  · subst plus
    rfl
  · unfold pathStep
    split
    · simp_all
    · unfold percentStep
      split <;> simp_all

/-- Text without a percent sign is not escaped. -/
theorem pathUnescape_of_notMem
    {text : Bytes}
    (plain : 0x25 ∉ text) :
    pathUnescape text = some text := by
  induction text with
  | nil => rfl
  | cons first rest inductionHypothesis =>
      simp only [List.mem_cons, not_or] at plain
      have read : Scanning.scan pathStep ([first] ++ rest) = _ :=
        Scanning.scan_append (List.cons_ne_nil _ _)
          (pathStep_of_ne (Ne.symm plain.1) rest)
      have later := inductionHypothesis plain.2
      unfold pathUnescape at later ⊢
      rw [List.singleton_append] at read
      rw [read, later]
      rfl

/-! ## Cleaning -/

/-- A segment that stands for the directory it is in. -/
def stays (segment : Bytes) : Bool := segment == [] || segment == ascii "."

/-- The segment that stands for the directory above. -/
def parent : Bytes := ascii ".."

/-- Two dots take back the last segment that was kept.  Where there is none, a
rooted path stays at its root. -/
def ascend (rooted : Bool) : List Bytes → List Bytes
  | [] => if rooted then [] else [parent]
  | last :: kept => if last = parent then parent :: last :: kept else kept

/-- The segments kept so far, last one first, after one more. -/
def keep (rooted : Bool) (kept : List Bytes) (segment : Bytes) : List Bytes :=
  if stays segment then kept
  else if segment = parent then ascend rooted kept
  else segment :: kept

/-- `path.Clean` on the segments of a path. -/
def cleanSegments (rooted : Bool) (segments : List Bytes) : List Bytes :=
  (segments.foldl (keep rooted) []).reverse

/-- `path.Clean`. -/
def pathClean (path : Bytes) : Bytes :=
  let rooted := hasPrefix path (ascii "/")
  let joined := (ascii "/").intercalate (cleanSegments rooted (split path 0x2F))
  if rooted then ascii "/" ++ joined
  else if joined = [] then ascii "."
  else joined

example : pathClean (ascii "/a/./b//../c/") = ascii "/a/c" := by decide +kernel

example : pathClean (ascii "/../etc/passwd") = ascii "/etc/passwd" := by
  decide +kernel

example : pathClean (ascii "a/../../b") = ascii "../b" := by decide +kernel

/-- A segment that names something in its directory. -/
def Names (segment : Bytes) : Prop :=
  stays segment = false ∧ segment ≠ parent

theorem keep_of_names
    {segment : Bytes}
    (names : Names segment)
    (rooted : Bool)
    (kept : List Bytes) :
    keep rooted kept segment = segment :: kept := by
  rw [keep, if_neg (by simp [names.1]), if_neg names.2]

/-- Segments that all name something are kept. -/
theorem cleanSegments_of_names
    {segments : List Bytes}
    (names : ∀ segment ∈ segments, Names segment)
    (rooted : Bool) :
    cleanSegments rooted segments = segments := by
  have kept : ∀ before, segments.foldl (keep rooted) before =
      segments.reverse ++ before := by
    induction segments with
    | nil => exact fun _ => rfl
    | cons first rest inductionHypothesis =>
        obtain ⟨here, later⟩ := List.forall_mem_cons.mp names
        intro before
        rw [List.foldl_cons, keep_of_names here, inductionHypothesis later]
        simp
  rw [cleanSegments, kept, List.append_nil, List.reverse_reverse]

/-- One segment adds nothing but itself, and only if it names something. -/
theorem names_of_mem_keep
    {kept : List Bytes}
    {segment : Bytes}
    (names : ∀ other ∈ kept, Names other) :
    ∀ other ∈ keep true kept segment,
      Names other ∧ (other ∈ kept ∨ other = segment) := by
  intro other listed
  rw [keep] at listed
  split at listed
  case isTrue => exact ⟨names other listed, Or.inl listed⟩
  case isFalse moves =>
    split at listed
    case isTrue =>
      cases kept with
      | nil => exact absurd listed List.not_mem_nil
      | cons last kept =>
          rw [ascend, if_neg (names last List.mem_cons_self).2] at listed
          have stillKept := List.mem_cons_of_mem last listed
          exact ⟨names other stillKept, Or.inl stillKept⟩
    case isFalse notParent =>
      rcases List.mem_cons.mp listed with rfl | isKept
      · exact ⟨⟨Bool.eq_false_iff.mpr moves, notParent⟩, Or.inr rfl⟩
      · exact ⟨names other isKept, Or.inl isKept⟩

/-- A rooted path is cleaned to segments of its own that name something, so it
never leads above its root. -/
theorem names_of_mem_cleanSegments
    {segments : List Bytes} :
    ∀ segment ∈ cleanSegments true segments,
      Names segment ∧ segment ∈ segments := by
  have kept : ∀ before : List Bytes, (∀ other ∈ before, Names other) →
      ∀ other ∈ segments.foldl (keep true) before,
        Names other ∧ (other ∈ before ∨ other ∈ segments) := by
    induction segments with
    | nil => exact fun _ names other listed => ⟨names other listed, Or.inl listed⟩
    | cons first rest inductionHypothesis =>
        intro before names other listed
        have step : ∀ other ∈ keep true before first, _ := names_of_mem_keep names
        obtain ⟨isName, source⟩ := inductionHypothesis _
          (fun other isKept => (step other isKept).1) other listed
        refine ⟨isName, ?_⟩
        rcases source with isKept | later
        · rcases (step other isKept).2 with earlier | rfl
          · exact Or.inl earlier
          · exact Or.inr List.mem_cons_self
        · exact Or.inr (List.mem_cons_of_mem _ later)
  intro segment listed
  rw [cleanSegments, List.mem_reverse] at listed
  obtain ⟨isName, source⟩ := kept [] (by simp) segment listed
  exact ⟨isName, source.resolve_left List.not_mem_nil⟩

/-! ## Paths of separate segments -/

/-- The path of these segments, from the root. -/
def joinPath (segments : List Bytes) : Bytes :=
  segments.flatMap fun segment => 0x2F :: segment

/-- A segment that stays one when its path is cleaned. -/
structure Separate (segment : Bytes) : Prop where
  names : Names segment
  noSlash : 0x2F ∉ segment

/-- A segment that stands in a path as it is. -/
structure Plain (segment : Bytes) : Prop extends Separate segment where
  noPercent : 0x25 ∉ segment

theorem Separate.ne_nil {segment : Bytes} (separate : Separate segment) :
    segment ≠ [] := by
  rintro rfl
  exact absurd separate.names.1 (by decide)

theorem joinPath_cons (segment : Bytes) (rest : List Bytes) :
    joinPath (segment :: rest) =
      0x2F :: (ascii "/").intercalate (segment :: rest) := by
  induction rest generalizing segment with
  | nil => simp [joinPath]
  | cons second rest inductionHypothesis =>
      change 0x2F :: segment ++ joinPath (second :: rest) = _
      rw [inductionHypothesis, List.intercalate_cons_cons, List.append_assoc]
      rfl

theorem split_joinPath
    {segments : List Bytes}
    (noSlash : ∀ segment ∈ segments, 0x2F ∉ segment) :
    split (joinPath segments) 0x2F = [] :: segments := by
  have joined : joinPath segments = [0x2F].intercalate ([] :: segments) := by
    cases segments with
    | nil => rfl
    | cons segment rest =>
        rw [joinPath_cons, List.intercalate_cons_cons]
        rfl
  rw [joined, split, List.splitOn_intercalate]
  · exact List.forall_mem_cons.mpr ⟨List.not_mem_nil, noSlash⟩
  · exact List.cons_ne_nil _ _

/-- Such a path is clean. -/
theorem pathClean_joinPath
    {segments : List Bytes}
    (separate : ∀ segment ∈ segments, Separate segment)
    (nonempty : segments ≠ []) :
    pathClean (joinPath segments) = joinPath segments := by
  obtain ⟨first, rest, rfl⟩ := List.exists_cons_of_ne_nil nonempty
  have parts := split_joinPath fun segment listed => (separate segment listed).noSlash
  have kept : cleanSegments true ([] :: first :: rest) = first :: rest :=
    cleanSegments_of_names (fun segment listed => (separate segment listed).names) true
  have rooted : hasPrefix (joinPath (first :: rest)) (ascii "/") = true := rfl
  simp only [pathClean, rooted, parts, kept, if_true]
  exact (joinPath_cons first rest).symm

/-- Such a path does not end in a slash. -/
theorem hasSuffix_joinPath
    {segments : List Bytes}
    (separate : ∀ segment ∈ segments, Separate segment) :
    hasSuffix (joinPath segments) (ascii "/") = false := by
  rw [Bool.eq_false_iff]
  intro ends
  obtain ⟨front, same⟩ : ascii "/" <:+ joinPath segments :=
    List.isSuffixOf_iff_suffix.mp ends
  rcases segments.eq_nil_or_concat with rfl | ⟨before, last, rfl⟩
  · simp [joinPath, ascii] at same
  · have isSeparate := separate last (by simp)
    obtain ⟨middle, final, isLast⟩ :=
      List.eq_nil_or_concat last |>.resolve_left isSeparate.ne_nil
    have lasts := congrArg List.getLast? same
    simp only [joinPath, List.concat_eq_append, isLast, List.flatMap_append,
      List.flatMap_singleton] at lasts
    rw [← List.cons_append, ← List.append_assoc, List.getLast?_concat,
      show ascii "/" = [0x2F] from rfl, List.getLast?_concat,
      Option.some.injEq] at lasts
    exact isSeparate.noSlash (by simp [isLast, lasts])

end Go
end Haste
