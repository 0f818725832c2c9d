import Mathlib.Data.Finset.Card

/-!
# Counting the keys whose value is in a class

A map gives every key of an unbounded set a value, and a counter is meant to
say how many keys have a value in some class.  `Census` states that it does.
A counter that is raised and lowered as single values enter and leave the class
goes on doing so.
-/

namespace Foundation

variable {Key Value : Type*}

/-- Exactly `count` keys have a value in the class. -/
def Census (value : Key → Value) (inClass : Value → Bool) (count : Nat) : Prop :=
  ∃ keys : Finset Key,
    (∀ key, key ∈ keys ↔ inClass (value key) = true) ∧ keys.card = count

namespace Census

variable {value : Key → Value} {inClass : Value → Bool} {count : Nat}

/-- Every set of keys in the class is within the count. -/
theorem card_le
    (census : Census value inClass count)
    {keys : Finset Key}
    (counted : ∀ key ∈ keys, inClass (value key) = true) :
    keys.card ≤ count := by
  obtain ⟨all, memAll, rfl⟩ := census
  apply Finset.card_le_card
  intro key present
  exact (memAll key).mpr (counted key present)

/-- A list of keys that names exactly the class, each once, has its length. -/
theorem length_eq
    (census : Census value inClass count)
    {keys : List Key}
    (distinct : keys.Nodup)
    (names : ∀ key, key ∈ keys ↔ inClass (value key) = true) :
    keys.length = count := by
  classical
  obtain ⟨all, memAll, rfl⟩ := census
  rw [← List.toFinset_card_of_nodup distinct]
  congr 1
  ext key
  rw [List.mem_toFinset, names, memAll]

/-- A class that is part of another one counts no more keys. -/
theorem le_of_imp
    {other : Value → Bool}
    {otherCount : Nat}
    (census : Census value inClass count)
    (otherCensus : Census value other otherCount)
    (within : ∀ key, inClass (value key) = true → other (value key) = true) :
    count ≤ otherCount := by
  obtain ⟨keys, memKeys, rfl⟩ := census
  apply otherCensus.card_le
  intro key present
  exact within key ((memKeys key).mp present)

theorem unique
    {other : Nat}
    (census : Census value inClass count)
    (again : Census value inClass other) :
    count = other :=
  Nat.le_antisymm (census.le_of_imp again fun _ => id)
    (again.le_of_imp census fun _ => id)

/-- A class without keys counts zero. -/
theorem eq_zero
    (census : Census value inClass count)
    (empty : ∀ key, inClass (value key) = false) :
    count = 0 := by
  obtain ⟨keys, memKeys, rfl⟩ := census
  rw [Finset.card_eq_zero]
  ext key
  simp [memKeys, empty]

theorem zero (empty : ∀ key, inClass (value key) = false) :
    Census value inClass 0 :=
  ⟨∅, fun key => by simp [empty], rfl⟩

theorem pos_of_mem
    (census : Census value inClass count)
    {key : Key}
    (counted : inClass (value key) = true) :
    0 < count := by
  obtain ⟨keys, memKeys, rfl⟩ := census
  exact Finset.card_pos.mpr ⟨key, (memKeys key).mpr counted⟩

variable [DecidableEq Key]

/-- A value that comes into the class is counted. -/
theorem enter
    (census : Census value inClass count)
    {key : Key}
    {new : Value}
    (before : inClass (value key) = false)
    (after : inClass new = true) :
    Census (Function.update value key new) inClass (count + 1) := by
  obtain ⟨keys, memKeys, rfl⟩ := census
  have absent : key ∉ keys := by
    rw [memKeys, before]
    decide
  refine ⟨insert key keys, ?_, Finset.card_insert_of_notMem absent⟩
  intro other
  by_cases same : other = key
  · simp [same, after]
  · simp [same, memKeys]

/-- A value that goes out of the class is not counted any more. -/
theorem leave
    (census : Census value inClass (count + 1))
    {key : Key}
    {new : Value}
    (before : inClass (value key) = true)
    (after : inClass new = false) :
    Census (Function.update value key new) inClass count := by
  obtain ⟨keys, memKeys, sameCard⟩ := census
  have present : key ∈ keys := (memKeys key).mpr before
  refine ⟨keys.erase key, ?_, ?_⟩
  · intro other
    by_cases same : other = key
    · simp [same, after]
    · simp [same, memKeys]
  · rw [Finset.card_erase_of_mem present, sameCard, Nat.add_sub_cancel]

/-- A value that stays in the class, or out of it, changes no count. -/
theorem stay
    (census : Census value inClass count)
    {key : Key}
    {new : Value}
    (same : inClass new = inClass (value key)) :
    Census (Function.update value key new) inClass count := by
  obtain ⟨keys, memKeys, rfl⟩ := census
  refine ⟨keys, ?_, rfl⟩
  intro other
  by_cases sameKey : other = key
  · rw [sameKey, Function.update_self, same, memKeys]
  · rw [Function.update_of_ne sameKey, memKeys]

end Census

end Foundation
