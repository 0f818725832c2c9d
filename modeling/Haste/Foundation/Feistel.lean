import Mathlib.Logic.Function.Basic
import Mathlib.Data.Prod.Basic

/-!
# Feistel networks over an arbitrary half block

A round swaps the two halves of a block and mixes a round value of one half
into the other.  The round value is an arbitrary function, so nothing is
assumed of the keyed hash that computes it: a network is injective as soon as
the mixing operation can be cancelled, and it keeps a block inside any set of
halves that is closed under mixing.
-/

namespace Foundation
namespace Feistel

variable {Half : Type*}

/-- Swap the halves and mix the round value of the right half into the left. -/
def round
    (mix : Half → Half → Half)
    (roundValue : Half → Half)
    (block : Half × Half) : Half × Half :=
  (block.2, mix block.1 (roundValue block.2))

/-- The rounds `0, ..., count - 1`, in this order. -/
def network
    (mix : Half → Half → Half)
    (roundValue : Nat → Half → Half) : Nat → Half × Half → Half × Half
  | 0, block => block
  | count + 1, block =>
      round mix (roundValue count) (network mix roundValue count block)

/-- A round is injective for every round function, because the half it is
computed from is kept. -/
theorem round_injective
    {mix : Half → Half → Half}
    (cancel : ∀ value, Function.Injective fun half => mix half value)
    (roundValue : Half → Half) :
    Function.Injective (round mix roundValue) := by
  rintro ⟨left, right⟩ ⟨left', right'⟩ equal
  simp only [round, Prod.mk.injEq] at equal
  obtain ⟨rightEqual, mixedEqual⟩ := equal
  subst rightEqual
  have leftEqual := cancel (roundValue right) mixedEqual
  simp only [leftEqual]

/-- A network is injective for every family of round functions. -/
theorem network_injective
    {mix : Half → Half → Half}
    (cancel : ∀ value, Function.Injective fun half => mix half value)
    (roundValue : Nat → Half → Half)
    (count : Nat) :
    Function.Injective (network mix roundValue count) := by
  induction count with
  | zero => exact Function.injective_id
  | succ count inductionHypothesis =>
      exact (round_injective cancel (roundValue count)).comp inductionHypothesis

/-- A network keeps both halves inside a set that holds every round value and
is closed under mixing. -/
theorem network_mem
    {mix : Half → Half → Half}
    {inside : Half → Prop}
    {roundValue : Nat → Half → Half}
    (mixInside : ∀ half value, inside half → inside value →
      inside (mix half value))
    (valueInside : ∀ index half, inside (roundValue index half))
    (count : Nat)
    {block : Half × Half}
    (leftInside : inside block.1)
    (rightInside : inside block.2) :
    inside (network mix roundValue count block).1 ∧
      inside (network mix roundValue count block).2 := by
  induction count with
  | zero => exact ⟨leftInside, rightInside⟩
  | succ count inductionHypothesis =>
      obtain ⟨left, right⟩ := inductionHypothesis
      exact ⟨right, mixInside _ _ left (valueInside _ _)⟩

end Feistel
end Foundation
