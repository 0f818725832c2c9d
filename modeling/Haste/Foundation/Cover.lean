import Mathlib.Algebra.BigOperators.Group.List.Basic
import Mathlib.Algebra.GroupWithZero.Nat
import Mathlib.Data.List.TakeDrop

/-!
# Shortest prefixes of a given weight

The cover of a list is its shortest prefix whose weights add up to a needed
amount, or the whole list when that is too light.  An item belongs to it
exactly when the items before it weigh less than the need, so the cover can be
read off the running totals; and it can be taken batch by batch with a
shrinking need, whatever the sizes of the batches.
-/

namespace Foundation
namespace Cover

variable {α : Type*} (weight : α → Nat)

/-- Total weight of a list. -/
def total (items : List α) : Nat := (items.map weight).sum

@[simp] theorem total_nil : total weight [] = 0 := rfl

@[simp] theorem total_cons (item : α) (rest : List α) :
    total weight (item :: rest) = weight item + total weight rest := by
  simp [total]

@[simp] theorem total_append (before after : List α) :
    total weight (before ++ after) = total weight before + total weight after := by
  simp [total]

theorem total_perm {left right : List α} (permuted : left.Perm right) :
    total weight left = total weight right :=
  (permuted.map weight).sum_eq

/-- A list splits into the items that satisfy a test and the others. -/
theorem total_filter_add_total_filter_not
    (test : α → Bool)
    (items : List α) :
    total weight (items.filter test) +
      total weight (items.filter fun item => !test item) =
        total weight items := by
  induction items with
  | nil => rfl
  | cons item rest inductionHypothesis =>
      cases kept : test item <;>
        simp [kept] <;>
        omega

/-- The shortest prefix that weighs at least `need`, or the whole list. -/
def cover : List α → Nat → List α
  | [], _ => []
  | item :: rest, need =>
      if need = 0 then []
      else item :: cover rest (need - weight item)

@[simp] theorem cover_nil (need : Nat) : cover weight [] need = [] := rfl

@[simp] theorem cover_zero (items : List α) : cover weight items 0 = [] := by
  cases items <;> rfl

theorem cover_cons_of_pos
    {need : Nat}
    (positive : 0 < need)
    (item : α)
    (rest : List α) :
    cover weight (item :: rest) need =
      item :: cover weight rest (need - weight item) := by
  rw [cover, if_neg (Nat.pos_iff_ne_zero.mp positive)]

theorem cover_prefix (items : List α) (need : Nat) :
    cover weight items need <+: items := by
  induction items generalizing need with
  | nil => exact List.prefix_refl _
  | cons item rest inductionHypothesis =>
      rcases Nat.eq_zero_or_pos need with rfl | positive
      · exact List.nil_prefix
      · rw [cover_cons_of_pos weight positive]
        exact List.cons_prefix_cons.mpr ⟨rfl, inductionHypothesis _⟩

/-- The cover of a concatenation covers the first part and then the second
with what is left of the need. -/
theorem cover_append (before after : List α) (need : Nat) :
    cover weight (before ++ after) need =
      cover weight before need ++
        cover weight after (need - total weight before) := by
  induction before generalizing need with
  | nil => simp
  | cons item before inductionHypothesis =>
      rcases Nat.eq_zero_or_pos need with rfl | positive
      · simp
      · rw [List.cons_append, cover_cons_of_pos weight positive,
          cover_cons_of_pos weight positive, inductionHypothesis,
          List.cons_append, total_cons, Nat.sub_sub]

/-- Any first part that meets the need contains the cover. -/
theorem cover_prefix_of_meets
    {items front : List α}
    (isFront : front <+: items)
    {need : Nat}
    (meets : need ≤ total weight front) :
    cover weight items need <+: front := by
  obtain ⟨rest, rfl⟩ := isFront
  rw [cover_append, Nat.sub_eq_zero_of_le meets, cover_zero, List.append_nil]
  exact cover_prefix weight front need

/-- A cover either meets the need or is the whole list. -/
theorem cover_meets_or_all (items : List α) (need : Nat) :
    need ≤ total weight (cover weight items need) ∨
      cover weight items need = items := by
  induction items generalizing need with
  | nil => exact Or.inr rfl
  | cons item rest inductionHypothesis =>
      rcases Nat.eq_zero_or_pos need with rfl | positive
      · exact Or.inl (Nat.zero_le _)
      · rw [cover_cons_of_pos weight positive, total_cons]
        rcases inductionHypothesis (need - weight item) with meets | all
        · exact Or.inl (by omega)
        · exact Or.inr (by rw [all])

/-- Nothing is covered exactly when there is no need or no item. -/
theorem cover_eq_nil_iff (items : List α) (need : Nat) :
    cover weight items need = [] ↔ need = 0 ∨ items = [] := by
  cases items with
  | nil => simp
  | cons item rest =>
      rcases Nat.eq_zero_or_pos need with rfl | positive
      · simp
      · rw [cover_cons_of_pos weight positive]
        simp only [reduceCtorEq, or_false, false_iff]
        omega

/-- An item is covered exactly when the items before it do not meet the need. -/
theorem mem_cover_iff
    [DecidableEq α]
    (items : List α)
    (need : Nat)
    (item : α) :
    item ∈ cover weight items need ↔
      item ∈ items ∧
        total weight (items.takeWhile fun other => other != item) < need := by
  induction items generalizing need with
  | nil => simp
  | cons first rest inductionHypothesis =>
      rcases Nat.eq_zero_or_pos need with rfl | positive
      · simp
      · rw [cover_cons_of_pos weight positive]
        by_cases same : first = item
        · subst same
          simpa using positive
        · have apart : (first != item) = true := bne_iff_ne.mpr same
          have shift : total weight (rest.takeWhile fun other => other != item) <
                need - weight first ↔
              total weight (first :: rest.takeWhile fun other => other != item) <
                need := by
            rw [total_cons]
            omega
          simp only [List.mem_cons, Ne.symm same, false_or, inductionHypothesis,
            List.takeWhile_cons, apart, if_true, shift]

/-- One batch of a cover: cover the first items only, and go on with the items
after what was taken and the need that is left. -/
theorem cover_eq_batch_append (items : List α) (need size : Nat) :
    cover weight items need =
      cover weight (items.take size) need ++
        cover weight
          (items.drop (cover weight (items.take size) need).length)
          (need - total weight (cover weight (items.take size) need)) := by
  have whole := cover_append weight (items.take size) (items.drop size) need
  rw [List.take_append_drop] at whole
  rcases cover_meets_or_all weight (items.take size) need with meets | all
  · have heavy : need ≤ total weight (items.take size) := by
      obtain ⟨rest, split⟩ := cover_prefix weight (items.take size) need
      rw [← split, total_append]
      omega
    rw [whole, Nat.sub_eq_zero_of_le heavy, Nat.sub_eq_zero_of_le meets,
      cover_zero, cover_zero]
  · rw [all, whole, all]
    congr 1
    rcases Nat.le_total size items.length with inside | outside
    · rw [List.length_take_of_le inside]
    · rw [List.drop_of_length_le outside, List.take_of_length_le outside,
        List.drop_of_length_le (Nat.le_refl _)]

/-- Each item with the total weight up to and including it. -/
def running : Nat → List α → List (α × Nat)
  | _, [] => []
  | before, item :: rest =>
      (item, before + weight item) :: running (before + weight item) rest

/-- The cover consists of the items whose preceding items weigh less than the
need. -/
theorem filter_running (items : List α) (before need : Nat) :
    ((running weight before items).filter fun entry =>
        decide (entry.2 - weight entry.1 < need)).map Prod.fst =
      cover weight items (need - before) := by
  induction items generalizing before with
  | nil => rfl
  | cons item rest inductionHypothesis =>
      rw [running, List.filter_cons]
      simp only [Nat.add_sub_cancel_right, decide_eq_true_eq]
      split
      · rename_i light
        rw [List.map_cons, inductionHypothesis,
          cover_cons_of_pos weight (by omega), Nat.sub_sub]
      · rename_i heavy
        rw [inductionHypothesis, Nat.sub_eq_zero_of_le (by omega),
          Nat.sub_eq_zero_of_le (by omega), cover_zero, cover_zero]

end Cover
end Foundation
