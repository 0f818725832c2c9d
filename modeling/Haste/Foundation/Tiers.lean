import Mathlib.Algebra.BigOperators.Group.List.Basic
import Mathlib.Algebra.GroupWithZero.Nat
import Mathlib.Data.List.Nodup

/-!
# Numbering consecutive tiers

A list of tiers of known sizes numbers all their places one after the other:
an index is located by walking the tiers and subtracting the size of each tier
it lies beyond.  Locating is a bijection between the indices below the total
size and the pairs of a tier and an offset inside it, and it visits the tiers
in the order of the list.
-/

namespace Foundation
namespace Tiers

variable {Tier : Type*} (size : Tier → Nat)

/-- The tier an index falls into, and its offset there. -/
def locate : List Tier → Nat → Option (Tier × Nat)
  | [], _ => none
  | tier :: rest, index =>
      if index < size tier then some (tier, index)
      else locate rest (index - size tier)

/-- Number of places of a list of tiers. -/
def total (tiers : List Tier) : Nat := (tiers.map size).sum

@[simp] theorem total_nil : total size [] = 0 := rfl

@[simp] theorem total_cons (tier : Tier) (rest : List Tier) :
    total size (tier :: rest) = size tier + total size rest := by
  simp [total]

@[simp] theorem total_append (before after : List Tier) :
    total size (before ++ after) = total size before + total size after := by
  simp [total]

variable {size} {tiers : List Tier} {tier : Tier} {index offset : Nat}

theorem locate_cons_of_lt
    {rest : List Tier}
    (inFirst : index < size tier) :
    locate size (tier :: rest) index = some (tier, index) := by
  rw [locate, if_pos inFirst]

theorem locate_cons_of_le
    {rest : List Tier}
    (beyond : size tier ≤ index) :
    locate size (tier :: rest) index =
      locate size rest (index - size tier) := by
  rw [locate, if_neg (Nat.not_lt.mpr beyond)]

/-- Only tiers of the list are located, at offsets inside them. -/
theorem locate_mem
    (located : locate size tiers index = some (tier, offset)) :
    tier ∈ tiers ∧ offset < size tier := by
  induction tiers generalizing index with
  | nil => simp [locate] at located
  | cons first rest inductionHypothesis =>
      rcases Nat.lt_or_ge index (size first) with inFirst | beyond
      · rw [locate_cons_of_lt inFirst] at located
        obtain ⟨rfl, rfl⟩ := Prod.mk.inj (Option.some.inj located)
        exact ⟨List.mem_cons_self, inFirst⟩
      · rw [locate_cons_of_le beyond] at located
        obtain ⟨present, bound⟩ := inductionHypothesis located
        exact ⟨List.mem_cons_of_mem _ present, bound⟩

/-- Exactly the indices below the total size are located. -/
theorem locate_isSome_iff :
    (locate size tiers index).isSome ↔ index < total size tiers := by
  induction tiers generalizing index with
  | nil => simp [locate]
  | cons first rest inductionHypothesis =>
      rw [total_cons]
      rcases Nat.lt_or_ge index (size first) with inFirst | beyond
      · rw [locate_cons_of_lt inFirst]
        simp only [Option.isSome_some, true_iff]
        omega
      · rw [locate_cons_of_le beyond, inductionHypothesis]
        omega

/-- Tiers in front of the located one only shift the index. -/
theorem locate_append
    {before : List Tier} :
    locate size (before ++ tiers) (total size before + index) =
      locate size tiers index := by
  induction before with
  | nil => simp
  | cons first before inductionHypothesis =>
      rw [List.cons_append, locate_cons_of_le (by simp; omega),
        ← inductionHypothesis]
      congr 1
      rw [total_cons]
      omega

/-- Every place of every tier is located by an index. -/
theorem exists_locate
    (member : tier ∈ tiers)
    (bound : offset < size tier) :
    ∃ index < total size tiers,
      locate size tiers index = some (tier, offset) := by
  obtain ⟨before, after, rfl⟩ := List.append_of_mem member
  refine ⟨total size before + offset, ?_, ?_⟩
  · rw [total_append, total_cons]
    omega
  · rw [locate_append, locate_cons_of_lt bound]

/-- Distinct indices are located at distinct places. -/
theorem locate_injective
    (distinct : tiers.Nodup)
    {left right : Nat}
    (leftLocated : locate size tiers left = some (tier, offset))
    (rightLocated : locate size tiers right = some (tier, offset)) :
    left = right := by
  induction tiers generalizing left right with
  | nil => simp [locate] at leftLocated
  | cons first rest inductionHypothesis =>
      obtain ⟨firstAbsent, restDistinct⟩ := List.nodup_cons.mp distinct
      have absent : ∀ index, locate size rest index = some (tier, offset) →
          tier ≠ first := by
        rintro index located rfl
        exact firstAbsent (locate_mem located).1
      rcases Nat.lt_or_ge left (size first) with leftFirst | leftBeyond
      · rw [locate_cons_of_lt leftFirst] at leftLocated
        obtain ⟨rfl, rfl⟩ := Prod.mk.inj (Option.some.inj leftLocated)
        rcases Nat.lt_or_ge right (size first) with rightFirst | rightBeyond
        · rw [locate_cons_of_lt rightFirst] at rightLocated
          exact (Prod.mk.inj (Option.some.inj rightLocated)).2.symm
        · rw [locate_cons_of_le rightBeyond] at rightLocated
          exact absurd rfl (absent _ rightLocated)
      · rw [locate_cons_of_le leftBeyond] at leftLocated
        rcases Nat.lt_or_ge right (size first) with rightFirst | rightBeyond
        · rw [locate_cons_of_lt rightFirst] at rightLocated
          exact absurd (Prod.mk.inj (Option.some.inj rightLocated)).1.symm
            (absent _ leftLocated)
        · rw [locate_cons_of_le rightBeyond] at rightLocated
          have same := inductionHypothesis restDistinct leftLocated rightLocated
          omega

/-- A larger index is located in the same tier or in a later one. -/
theorem locate_mono
    {before : Tier → Tier → Prop}
    (ordered : tiers.Pairwise before)
    {left right : Nat}
    {leftTier rightTier : Tier}
    {leftOffset rightOffset : Nat}
    (leftLocated : locate size tiers left = some (leftTier, leftOffset))
    (rightLocated : locate size tiers right = some (rightTier, rightOffset))
    (le : left ≤ right) :
    leftTier = rightTier ∨ before leftTier rightTier := by
  induction tiers generalizing left right with
  | nil => simp [locate] at leftLocated
  | cons first rest inductionHypothesis =>
      obtain ⟨firstBefore, restOrdered⟩ := List.pairwise_cons.mp ordered
      rcases Nat.lt_or_ge left (size first) with leftFirst | leftBeyond
      · rw [locate_cons_of_lt leftFirst] at leftLocated
        obtain ⟨rfl, rfl⟩ := Prod.mk.inj (Option.some.inj leftLocated)
        rcases Nat.lt_or_ge right (size first) with rightFirst | rightBeyond
        · rw [locate_cons_of_lt rightFirst] at rightLocated
          exact Or.inl (Prod.mk.inj (Option.some.inj rightLocated)).1
        · rw [locate_cons_of_le rightBeyond] at rightLocated
          exact Or.inr (firstBefore _ (locate_mem rightLocated).1)
      · rw [locate_cons_of_le leftBeyond] at leftLocated
        rw [locate_cons_of_le (Nat.le_trans leftBeyond le)] at rightLocated
        exact inductionHypothesis restOrdered leftLocated rightLocated
          (by omega)

/-- Dropping tiers from the front moves every place to a smaller index: a
place that both lists locate has the larger index in the longer list. -/
theorem locate_drop_le
    {before : List Tier}
    (distinct : (before ++ tiers).Nodup)
    {long short : Nat}
    (longLocated : locate size (before ++ tiers) long = some (tier, offset))
    (shortLocated : locate size tiers short = some (tier, offset)) :
    short ≤ long := by
  have shifted : locate size (before ++ tiers) (total size before + short) =
      some (tier, offset) := by
    rw [locate_append, shortLocated]
  have same := locate_injective distinct longLocated shifted
  omega

end Tiers
end Foundation
