import Mathlib.Data.List.Chain
import Mathlib.Data.List.Infix

/-!
# The first occurrence of a part

The index of a part is where it occurs first.  Two parts that cannot overlap
occur one after the other, and what stands between two places of a text may be
replaced without moving an occurrence, as long as no part of the new text can
belong to one.
-/

namespace Haste
namespace Occurrence

variable {α : Type*}

section Index

variable [DecidableEq α]

/-- Where the part occurs first. -/
def indexOf (part text : List α) : Option Nat :=
  text.tails.findIdx? fun rest => part.isPrefixOf rest

theorem indexOf_eq_some_iff {part text : List α} {index : Nat} :
    indexOf part text = some index ↔
      index ≤ text.length ∧ part <+: text.drop index ∧
        ∀ earlier < index, ¬part <+: text.drop earlier := by
  simp only [indexOf, List.findIdx?_eq_some_iff_getElem, List.getElem_tails,
    List.isPrefixOf_iff_prefix, List.length_tails, Nat.lt_succ_iff, exists_prop]

end Index

/-- The text around an occurrence. -/
theorem take_append_drop_of_occurs
    {part text : List α}
    {index : Nat}
    (occurs : part <+: text.drop index) :
    text.take index ++ part ++ text.drop (index + part.length) = text := by
  obtain ⟨rest, same⟩ := occurs
  have after : text.drop (index + part.length) = rest := by
    rw [← List.drop_drop, ← same, List.drop_left]
  rw [after, List.append_assoc, same, List.take_append_drop]

/-- An occurrence does not depend on what comes after it. -/
theorem prefix_drop_append
    {part before rest : List α}
    {index : Nat}
    (occurs : part <+: (before ++ rest).drop index)
    (within : index + part.length ≤ before.length)
    (other : List α) :
    part <+: (before ++ other).drop index := by
  rw [List.drop_append_of_le_length (by omega)] at occurs ⊢
  have fits : part.length ≤ (before.drop index).length := by
    rw [List.length_drop]
    omega
  have starts := List.prefix_of_prefix_length_le occurs
    (List.prefix_append _ rest) fits
  exact starts.trans (List.prefix_append _ other)

/-- Two parts of which neither can start within the other. -/
def Disjoint (part other : List α) : Prop :=
  ∀ shift < part.length, ¬other <+: part.drop shift ∧ ¬part.drop shift <+: other

instance [DecidableEq α] (part other : List α) : Decidable (Disjoint part other) :=
  inferInstanceAs (Decidable (∀ shift < part.length,
    ¬other <+: part.drop shift ∧ ¬part.drop shift <+: other))

/-- The second one starts where the first one has ended. -/
theorem Disjoint.add_length_le
    {part other text : List α}
    (disjoint : Disjoint part other)
    {index later : Nat}
    (occurs : part <+: text.drop index)
    (occursLater : other <+: text.drop later)
    (order : index ≤ later) :
    index + part.length ≤ later := by
  by_contra overlap
  have shifted : part.drop (later - index) <+: text.drop later := by
    obtain ⟨rest, same⟩ := occurs
    refine ⟨rest, ?_⟩
    rw [← List.drop_append_of_le_length (by omega), same, List.drop_drop]
    congr 1
    omega
  rcases List.prefix_or_prefix_of_prefix shifted occursLater with inside | inside
  · exact (disjoint (later - index) (by omega)).2 inside
  · exact (disjoint (later - index) (by omega)).1 inside

/-- A text that no occurrence of the part can reach into, wherever it is put. -/
structure Excludes (part middle : List α) : Prop where
  first : ∃ first ∈ middle.head?, first ∉ part
  last : ∃ last ∈ middle.getLast?, last ∉ part
  inside : ¬part <:+: middle

/-- What an occurrence has at a place is in the part. -/
theorem mem_of_prefix_drop
    {part text : List α}
    {index place : Nat}
    (occurs : part <+: text.drop index)
    (after : index ≤ place)
    (before : place < index + part.length)
    {letter : α}
    (isThere : text[place]? = some letter) :
    letter ∈ part := by
  have within : place - index < part.length := by omega
  have same := List.prefix_iff_getElem?.mp occurs (place - index) within
  rw [List.getElem?_drop, Nat.add_sub_cancel' after, isThere,
    Option.some.injEq] at same
  rw [same]
  exact List.getElem_mem within

/-- An occurrence is before or after it. -/
theorem Excludes.before_or_after
    {part middle before after : List α}
    (excludes : Excludes part middle)
    {index : Nat}
    (occurs : part <+: (before ++ middle ++ after).drop index) :
    index + part.length ≤ before.length ∨
      before.length + middle.length ≤ index := by
  obtain ⟨first, isFirst, firstFree⟩ := excludes.first
  obtain ⟨last, isLast, lastFree⟩ := excludes.last
  have some : 0 < middle.length := by
    cases middle with
    | nil => cases isFirst
    | cons _ _ => simp
  by_contra overlap
  rw [not_or, not_le, not_le] at overlap
  obtain ⟨enters, starts⟩ := overlap
  by_cases early : index ≤ before.length
  · refine firstFree (mem_of_prefix_drop occurs early enters ?_)
    rw [List.append_assoc, List.getElem?_append_right (le_refl _), Nat.sub_self,
      List.getElem?_append_left some, ← List.head?_eq_getElem?]
    exact isFirst
  by_cases reaches : before.length + middle.length - 1 < index + part.length
  · refine lastFree (mem_of_prefix_drop occurs (by omega) reaches ?_)
    rw [List.append_assoc, List.getElem?_append_right (by omega),
      List.getElem?_append_left (by omega)]
    rw [List.getLast?_eq_getElem?] at isLast
    rw [← isLast]
    congr 1
    omega
  · -- Neither end of the text is reached.
    refine excludes.inside ?_
    have inMiddle : (before ++ middle ++ after).drop index =
        middle.drop (index - before.length) ++ after := by
      rw [List.append_assoc, List.drop_append, List.drop_eq_nil_of_le (by omega),
        List.nil_append, List.drop_append_of_le_length (by omega)]
    rw [inMiddle] at occurs
    have short : part.length ≤ (middle.drop (index - before.length)).length := by
      rw [List.length_drop]
      omega
    have starts := List.prefix_of_prefix_length_le occurs
      (List.prefix_append _ after) short
    exact starts.isInfix.trans (List.drop_suffix _ _).isInfix

/-! ## Two letters that do not meet -/

/-- The second letter does not follow the first one, whatever is put after the
text. -/
structure Apart (first second : α) (text : List α) : Prop where
  inside : text.IsChain fun letter next => ¬(letter = first ∧ next = second)
  last : first ∉ text.getLast?

namespace Apart

variable {first second : α} {text rest : List α}

theorem of_not_mem (free : first ∉ text) : Apart first second text := by
  constructor
  · rw [List.isChain_iff_getElem]
    rintro place within ⟨same, -⟩
    exact free (same ▸ List.getElem_mem _)
  · exact fun isLast => free (List.mem_of_getLast? isLast)

theorem append
    (before : Apart first second text)
    (after : Apart first second rest) :
    Apart first second (text ++ rest) := by
  constructor
  · refine List.isChain_append.mpr ⟨before.inside, after.inside, ?_⟩
    rintro letter isLast next - ⟨rfl, -⟩
    exact before.last isLast
  · rw [List.getLast?_append]
    cases isLast : rest.getLast? with
    | none => exact before.last
    | some letter => exact fun same => after.last (isLast ▸ same)

/-- Nothing that starts with these letters occurs. -/
theorem not_isInfix
    (apart : Apart first second text)
    {part : List α}
    (starts : [first, second] <+: part) :
    ¬part <:+: text := by
  intro occurs
  have chain := apart.inside.infix (starts.isInfix.trans occurs)
  simp at chain

end Apart

end Occurrence
end Haste
