import Mathlib.Data.List.Infix

/-!
# Scanning a text piece by piece

A scanner looks at what is left of a text and answers the item that it starts
with and how much of the text that item takes, or that the text is malformed.
Text that is made of pieces, each of which is read as one item before what
follows it, is read as these items, and up to the mark that ends it.
-/

namespace Haste
namespace Scanning

variable {α β γ : Type*} (step : List α → Option (β × Nat))

/-- The items of a text, or none if a part of it is malformed.  The first
argument counts the characters of the current item still to be passed. -/
def scanFrom : Nat → List α → Option (List β)
  | _, [] => some []
  | skip + 1, _ :: rest => scanFrom skip rest
  | 0, first :: rest =>
      match step (first :: rest) with
      | none => none
      | some (item, width) => (scanFrom (width - 1) rest).map (item :: ·)

/-- The items of a text. -/
def scan (text : List α) : Option (List β) := scanFrom step 0 text

/-- The text up to the first item that is the ending mark, and what follows the
mark; or none if a part before it is malformed or no mark is there. -/
def scanTo (isEnd : α → Bool) : Nat → List α → Option (List α × List α)
  | _, [] => none
  | skip + 1, first :: rest =>
      (scanTo isEnd skip rest).map fun parts => (first :: parts.1, parts.2)
  | 0, first :: rest =>
      if isEnd first then some ([], rest)
      else
        match step (first :: rest) with
        | none => none
        | some (_, width) =>
            (scanTo isEnd (width - 1) rest).map fun parts =>
              (first :: parts.1, parts.2)

theorem scanFrom_append (passed rest : List α) :
    scanFrom step passed.length (passed ++ rest) = scan step rest := by
  induction passed with
  | nil => rfl
  | cons first passed inductionHypothesis => exact inductionHypothesis

variable {step}

/-- A piece that is read as one item. -/
theorem scan_append
    {piece rest : List α}
    {item : β}
    (nonempty : piece ≠ [])
    (reads : step (piece ++ rest) = some (item, piece.length)) :
    scan step (piece ++ rest) = (scan step rest).map (item :: ·) := by
  cases piece with
  | nil => exact absurd rfl nonempty
  | cons first piece =>
      rw [List.cons_append] at reads ⊢
      rw [scan, scanFrom, reads]
      simp only [List.length_cons, Nat.add_sub_cancel]
      rw [scanFrom_append]

/-- Pieces, each of which is read as one item before what follows it. -/
theorem scan_flatMap
    {piece : γ → List α}
    {item : γ → β}
    {source : List γ}
    (nonempty : ∀ part ∈ source, piece part ≠ [])
    (reads : ∀ part rest, part :: rest <:+ source →
      step (piece part ++ rest.flatMap piece) =
        some (item part, (piece part).length)) :
    scan step (source.flatMap piece) = some (source.map item) := by
  induction source with
  | nil => rfl
  | cons part rest inductionHypothesis =>
      have later := inductionHypothesis
        (fun part isLater => nonempty part (List.mem_cons_of_mem _ isLater))
        (fun part after isSuffix =>
          reads part after (isSuffix.trans (List.suffix_cons _ _)))
      rw [List.flatMap_cons, scan_append (nonempty part List.mem_cons_self)
        (reads part rest (List.suffix_refl _)), later]
      rfl

/-- The first item of a text, and the items of what is left. -/
theorem scanFrom_zero_cons
    {first : α}
    {rest : List α}
    {items : List β}
    (scanned : scanFrom step 0 (first :: rest) = some items) :
    ∃ item width later, step (first :: rest) = some (item, width) ∧
      scanFrom step (width - 1) rest = some later ∧ items = item :: later := by
  rw [scanFrom] at scanned
  cases read : step (first :: rest) with
  | none => simp [read] at scanned
  | some result =>
      obtain ⟨item, width⟩ := result
      simp only [read, Option.map_eq_some_iff] at scanned
      obtain ⟨later, scannedLater, same⟩ := scanned
      exact ⟨item, width, later, rfl, scannedLater, same.symm⟩

/-- What every item of a step has, every item of a text has. -/
theorem forall_of_scanFrom
    {holds : β → Prop}
    (each : ∀ first rest item width,
      step (first :: rest) = some (item, width) → holds item)
    {skip : Nat}
    {text : List α}
    {items : List β}
    (scanned : scanFrom step skip text = some items) :
    ∀ item ∈ items, holds item := by
  induction text generalizing skip items with
  | nil =>
      cases skip <;>
        cases scanned <;>
        exact fun item listed => absurd listed List.not_mem_nil
  | cons first rest inductionHypothesis =>
      cases skip with
      | succ skip => exact inductionHypothesis scanned
      | zero =>
          obtain ⟨item, width, later, read, scannedLater, rfl⟩ :=
            scanFrom_zero_cons scanned
          exact List.forall_mem_cons.mpr
            ⟨each _ _ _ _ read, inductionHypothesis scannedLater⟩

/-- A text whose items take no more than this each is no longer than that many
times their number. -/
theorem length_le_of_scanFrom
    {bound : Nat}
    (positive : 1 ≤ bound)
    (narrow : ∀ first rest item width,
      step (first :: rest) = some (item, width) → width ≤ bound)
    {skip : Nat}
    {text : List α}
    {items : List β}
    (scanned : scanFrom step skip text = some items) :
    text.length ≤ skip + bound * items.length := by
  induction text generalizing skip items with
  | nil => exact Nat.zero_le _
  | cons first rest inductionHypothesis =>
      cases skip with
      | succ skip =>
          have scannedRest : scanFrom step skip rest = some items := scanned
          have shorter := inductionHypothesis scannedRest
          rw [List.length_cons]
          omega
      | zero =>
          obtain ⟨item, width, later, read, scannedLater, rfl⟩ :=
            scanFrom_zero_cons scanned
          have shorter := inductionHypothesis scannedLater
          have narrowItem := narrow _ _ _ _ read
          rw [List.length_cons, List.length_cons, Nat.mul_succ]
          omega

/-! ## Text that a mark ends -/

variable {isEnd : α → Bool}

theorem scanTo_skip (passed rest : List α) :
    scanTo step isEnd passed.length (passed ++ rest) =
      (scanTo step isEnd 0 rest).map fun parts => (passed ++ parts.1, parts.2) := by
  induction passed with
  | nil => simp
  | cons first passed inductionHypothesis =>
      rw [List.length_cons, List.cons_append, scanTo, inductionHypothesis,
        Option.map_map]
      rfl

/-- The text that was passed, the mark and the rest are the whole text. -/
theorem append_of_scanTo
    {skip : Nat}
    {text : List α}
    {parts : List α × List α}
    (scanned : scanTo step isEnd skip text = some parts) :
    ∃ mark, isEnd mark = true ∧ parts.1 ++ mark :: parts.2 = text := by
  induction text generalizing skip parts with
  | nil => cases skip <;> cases scanned
  | cons first rest inductionHypothesis =>
      have passed : ∀ skip parts, (scanTo step isEnd skip rest).map
          (fun parts => (first :: parts.1, parts.2)) = some parts →
          ∃ mark, isEnd mark = true ∧
            parts.1 ++ mark :: parts.2 = first :: rest := by
        intro skip parts mapped
        obtain ⟨later, scannedLater, rfl⟩ := Option.map_eq_some_iff.mp mapped
        obtain ⟨mark, isMark, rfl⟩ := inductionHypothesis scannedLater
        exact ⟨mark, isMark, rfl⟩
      cases skip with
      | succ skip => exact passed skip parts scanned
      | zero =>
          rw [scanTo] at scanned
          split at scanned
          case isTrue isMark =>
            cases scanned
            exact ⟨first, isMark, rfl⟩
          case isFalse =>
            cases read : step (first :: rest) with
            | none => simp [read] at scanned
            | some result =>
                simp only [read] at scanned
                exact passed _ parts scanned

/-- Pieces, each of which is read as one item before anything, and then the
mark. -/
theorem scanTo_flatMap
    {piece : γ → List α}
    {item : γ → β}
    {source : List γ}
    (reads : ∀ part ∈ source, ∀ rest,
      step (piece part ++ rest) = some (item part, (piece part).length))
    (inside : ∀ part ∈ source, ∃ first more,
      piece part = first :: more ∧ isEnd first = false)
    {mark : α}
    (isMark : isEnd mark = true)
    (rest : List α) :
    scanTo step isEnd 0 (source.flatMap piece ++ mark :: rest) =
      some (source.flatMap piece, rest) := by
  induction source with
  | nil => simp [scanTo, isMark]
  | cons part source inductionHypothesis =>
      obtain ⟨readsPart, readsLater⟩ := List.forall_mem_cons.mp reads
      obtain ⟨insidePart, insideLater⟩ := List.forall_mem_cons.mp inside
      obtain ⟨first, more, isPiece, notEnd⟩ := insidePart
      have read := readsPart (source.flatMap piece ++ mark :: rest)
      rw [isPiece, List.cons_append] at read
      rw [List.flatMap_cons, isPiece, List.append_assoc, List.cons_append, scanTo,
        notEnd, read]
      simp only [Bool.false_eq_true, if_false, List.length_cons,
        Nat.add_sub_cancel]
      rw [scanTo_skip, inductionHypothesis readsLater insideLater]
      rfl

end Scanning
end Haste
