import Mathlib.Data.List.Basic

/-!
# Requests that are given up on

A party issues requests, and gives up on the current one before it issues
another.  Outcomes arrive in any order or never, and only an outcome of a request
that was not given up on counts.  So what counts is an outcome of the current
request, whatever is still under way.
-/

namespace Foundation

/-- A request, and its outcome once it has one. -/
structure Ticket (Key Outcome : Type*) where
  key : Key
  withdrawn : Bool
  outcome : Option Outcome

/-- The requests in the order they were issued in. -/
structure Requests (Key Outcome : Type*) where
  issued : List (Ticket Key Outcome)
  /-- The request that is given up on next. -/
  current : Option Nat

namespace Requests

variable {Key Outcome : Type*} (requests : Requests Key Outcome)

/-- None was issued. -/
def empty : Requests Key Outcome where
  issued := []
  current := none

/-- The current request is given up on, if there is one. -/
def withdraw : Requests Key Outcome :=
  match requests.current with
  | none => requests
  | some index =>
      { issued := requests.issued.modify index fun ticket =>
          { ticket with withdrawn := true }
        current := none }

/-- One more request is issued, and is the current one. -/
def issue (key : Key) : Requests Key Outcome where
  issued := requests.issued ++ [⟨key, false, none⟩]
  current := some requests.issued.length

/-- An outcome arrives.  A request has no more than one. -/
def settle (index : Nat) (outcome : Outcome) : Requests Key Outcome :=
  { requests with
    issued := requests.issued.modify index fun ticket =>
      { ticket with outcome := ticket.outcome.or (some outcome) } }

/-- What was asked for, in order. -/
def keys : List Key := requests.issued.map Ticket.key

/-- Whether an outcome of this request would count. -/
def awaits (index : Nat) : Bool :=
  requests.issued[index]?.any fun ticket =>
    !ticket.withdrawn && ticket.outcome.isNone

/-- The current request has this key and this outcome, if any yet. -/
def IsCurrent (index : Nat) (key : Key) (outcome : Option Outcome) : Prop :=
  requests.current = some index ∧
    requests.issued[index]? = some ⟨key, false, outcome⟩

variable {requests}

theorem awaits_iff {index : Nat} :
    requests.awaits index = true ↔
      ∃ key, requests.issued[index]? = some ⟨key, false, none⟩ := by
  unfold awaits
  cases requests.issued[index]? with
  | none => simp
  | some ticket =>
      obtain ⟨key, withdrawn, outcome⟩ := ticket
      cases outcome <;> cases withdrawn <;> simp

@[simp] theorem withdraw_current : requests.withdraw.current = none := by
  unfold withdraw
  split
  case h_1 isNone => exact isNone
  case h_2 => rfl

@[simp] theorem length_withdraw :
    requests.withdraw.issued.length = requests.issued.length := by
  unfold withdraw
  split <;> simp

@[simp] theorem length_issue (key : Key) :
    (requests.issue key).issued.length = requests.issued.length + 1 := by
  simp [issue]

@[simp] theorem length_settle (index : Nat) (outcome : Outcome) :
    (requests.settle index outcome).issued.length = requests.issued.length := by
  simp [settle]

@[simp] theorem settle_current (index : Nat) (outcome : Outcome) :
    (requests.settle index outcome).current = requests.current := rfl

/-- A ticket that keeps its key keeps the keys. -/
theorem map_key_modify
    {change : Ticket Key Outcome → Ticket Key Outcome}
    (same : ∀ ticket, (change ticket).key = ticket.key)
    (index : Nat)
    (issued : List (Ticket Key Outcome)) :
    (issued.modify index change).map Ticket.key = issued.map Ticket.key := by
  apply List.ext_getElem?
  intro other
  simp only [List.getElem?_map, List.getElem?_modify, Option.map_eq_map,
    Option.map_map]
  congr 1
  funext ticket
  simp only [Function.comp_apply]
  split
  · exact same ticket
  · rfl

@[simp] theorem keys_withdraw : requests.withdraw.keys = requests.keys := by
  unfold withdraw
  split
  case h_1 => rfl
  case h_2 =>
    apply map_key_modify
    exact fun _ => rfl

@[simp] theorem keys_issue (key : Key) :
    (requests.issue key).keys = requests.keys ++ [key] := by
  simp [keys, issue]

@[simp] theorem keys_settle (index : Nat) (outcome : Outcome) :
    (requests.settle index outcome).keys = requests.keys := by
  apply map_key_modify
  exact fun _ => rfl

/-- A key under its number is the one of the ticket there. -/
theorem getElem?_keys {index : Nat} {key : Key} :
    requests.keys[index]? = some key ↔
      ∃ ticket, requests.issued[index]? = some ticket ∧ ticket.key = key := by
  rw [keys, List.getElem?_map, Option.map_eq_some_iff]

theorem isCurrent_issue (key : Key) :
    (requests.issue key).IsCurrent requests.issued.length key none :=
  ⟨rfl, by simp [issue]⟩

/-! ## One request counts at most -/

/-- Every request but the current one was given up on. -/
def Sole (requests : Requests Key Outcome) : Prop :=
  ∀ index ticket, requests.issued[index]? = some ticket →
    ticket.withdrawn = false → requests.current = some index

theorem sole_empty : (empty : Requests Key Outcome).Sole := by
  intro index ticket found
  simp [empty] at found

/-- After giving up, every request was given up on. -/
theorem Sole.withdrawn
    (sole : requests.Sole)
    {index : Nat}
    {ticket : Ticket Key Outcome}
    (found : requests.withdraw.issued[index]? = some ticket) :
    ticket.withdrawn = true := by
  unfold withdraw at found
  split at found
  case h_1 isNone =>
    by_contra kept
    have isCurrent := sole index ticket found (Bool.eq_false_iff.mpr kept)
    rw [isNone] at isCurrent
    cases isCurrent
  case h_2 current isSome =>
    simp only [List.getElem?_modify, Option.map_eq_map,
      Option.map_eq_some_iff] at found
    obtain ⟨old, isOld, rfl⟩ := found
    by_cases same : current = index
    · rw [if_pos same]
    · rw [if_neg same]
      by_contra kept
      have isCurrent := sole index old isOld (Bool.eq_false_iff.mpr kept)
      rw [isSome, Option.some.injEq] at isCurrent
      exact same isCurrent

theorem Sole.of_withdraw (sole : requests.Sole) : requests.withdraw.Sole := by
  intro index ticket found kept
  rw [sole.withdrawn found] at kept
  cases kept

/-- After giving up, one request may be issued. -/
theorem Sole.issue_withdraw (sole : requests.Sole) (key : Key) :
    (requests.withdraw.issue key).Sole := by
  intro index ticket found kept
  unfold issue at found ⊢
  rw [List.getElem?_append] at found
  split at found
  case isTrue =>
    rw [sole.withdrawn found] at kept
    cases kept
  case isFalse past =>
    have inside := List.getElem?_eq_some_iff.mp found
    have last : index - requests.withdraw.issued.length = 0 := by
      simpa using inside.1
    rw [show index = requests.withdraw.issued.length by omega]

theorem Sole.settle
    (sole : requests.Sole)
    (settled : Nat)
    (outcome : Outcome) :
    (requests.settle settled outcome).Sole := by
  intro index ticket found kept
  unfold Requests.settle at found
  simp only [List.getElem?_modify, Option.map_eq_map,
    Option.map_eq_some_iff] at found
  obtain ⟨old, isOld, rfl⟩ := found
  refine sole index old isOld ?_
  split at kept
  · exact kept
  · exact kept

/-- What counts is an outcome of the current request. -/
theorem Sole.isCurrent
    (sole : requests.Sole)
    {index : Nat}
    (awaited : requests.awaits index = true) :
    ∃ key, requests.IsCurrent index key none := by
  obtain ⟨key, found⟩ := Requests.awaits_iff.mp awaited
  exact ⟨key, sole index _ found rfl, found⟩

/-- Without a current request no outcome counts. -/
theorem Sole.awaits_of_none
    (sole : requests.Sole)
    (idle : requests.current = none)
    (index : Nat) :
    requests.awaits index = false := by
  rw [Bool.eq_false_iff]
  intro awaited
  obtain ⟨key, isCurrent, -⟩ := sole.isCurrent awaited
  rw [idle] at isCurrent
  cases isCurrent

theorem Sole.awaits_iff
    (sole : requests.Sole)
    {index : Nat}
    {key : Key}
    {outcome : Option Outcome}
    (isCurrent : requests.IsCurrent index key outcome)
    (other : Nat) :
    requests.awaits other = true ↔ other = index ∧ outcome = none := by
  constructor
  · intro awaited
    obtain ⟨otherKey, isOther, found⟩ := sole.isCurrent awaited
    rw [isCurrent.1, Option.some.injEq] at isOther
    subst isOther
    rw [isCurrent.2, Option.some.injEq] at found
    cases found
    exact ⟨rfl, rfl⟩
  · rintro ⟨rfl, rfl⟩
    exact Requests.awaits_iff.mpr ⟨key, isCurrent.2⟩

/-- The outcome that was awaited is the one of the current request. -/
theorem IsCurrent.settle_awaited
    {index : Nat}
    {key : Key}
    (isCurrent : requests.IsCurrent index key none)
    (arrived : Outcome) :
    (requests.settle index arrived).IsCurrent index key (some arrived) := by
  refine ⟨isCurrent.1, ?_⟩
  unfold Requests.settle
  rw [List.getElem?_modify, isCurrent.2]
  simp

/-- An outcome that was not awaited leaves the current request as it is. -/
theorem IsCurrent.settle_other
    {index settled : Nat}
    {key : Key}
    {outcome : Option Outcome}
    (isCurrent : requests.IsCurrent index key outcome)
    (unawaited : requests.awaits settled = false)
    (arrived : Outcome) :
    (requests.settle settled arrived).IsCurrent index key outcome := by
  refine ⟨isCurrent.1, ?_⟩
  unfold Requests.settle
  rw [List.getElem?_modify, isCurrent.2]
  split
  case isTrue same =>
    subst same
    cases outcome with
    | none =>
        rw [Requests.awaits_iff.mpr ⟨key, isCurrent.2⟩] at unawaited
        cases unawaited
    | some outcome => rfl
  case isFalse => rfl

/-- An outcome makes no other one count. -/
theorem awaits_settle
    {index : Nat}
    (unawaited : requests.awaits index = false)
    (settled : Nat)
    (arrived : Outcome) :
    (requests.settle settled arrived).awaits index = false := by
  rw [Bool.eq_false_iff, ne_eq, awaits_iff] at unawaited ⊢
  rintro ⟨key, found⟩
  simp only [settle, List.getElem?_modify, Option.map_eq_map,
    Option.map_eq_some_iff] at found
  obtain ⟨⟨_, withdrawn, outcome⟩, isOld, isNext⟩ := found
  refine unawaited ⟨key, isOld.trans ?_⟩
  split at isNext
  · cases outcome <;> simp_all
  · exact congrArg some isNext

/-! ## What has arrived stays -/

/-- Each request is still there under its key, with the outcome it had. -/
def Extends (later requests : Requests Key Outcome) : Prop :=
  ∀ (index : Nat) (ticket : Ticket Key Outcome),
    requests.issued[index]? = some ticket →
    ∃ next : Ticket Key Outcome, later.issued[index]? = some next ∧ next.key = ticket.key ∧
      ∀ outcome ∈ ticket.outcome, next.outcome = some outcome

theorem extends_withdraw (requests : Requests Key Outcome) :
    requests.withdraw.Extends requests := by
  intro index ticket found
  unfold withdraw
  split
  case h_1 => exact ⟨ticket, found, rfl, fun _ same => same⟩
  case h_2 current isSome =>
    rw [List.getElem?_modify, found]
    split
    · exact ⟨_, rfl, rfl, fun _ same => same⟩
    · exact ⟨_, rfl, rfl, fun _ same => same⟩

theorem extends_issue (requests : Requests Key Outcome) (key : Key) :
    (requests.issue key).Extends requests := by
  intro index ticket found
  have inside := (List.getElem?_eq_some_iff.mp found).1
  exact ⟨ticket, by rw [issue, List.getElem?_append_left inside, found], rfl,
    fun _ same => same⟩

theorem extends_settle
    (requests : Requests Key Outcome)
    (settled : Nat)
    (arrived : Outcome) :
    (requests.settle settled arrived).Extends requests := by
  intro index ticket found
  unfold settle
  rw [List.getElem?_modify, found]
  split
  · refine ⟨_, rfl, rfl, ?_⟩
    intro outcome isOutcome
    simp [Option.mem_def.mp isOutcome]
  · exact ⟨_, rfl, rfl, fun _ same => same⟩

theorem Extends.trans
    {first second third : Requests Key Outcome}
    (later : third.Extends second)
    (earlier : second.Extends first) :
    third.Extends first := by
  intro index ticket found
  obtain ⟨middle, isMiddle, sameKey, kept⟩ := earlier index ticket found
  obtain ⟨last, isLast, lastKey, keptLast⟩ := later index middle isMiddle
  exact ⟨last, isLast, lastKey.trans sameKey,
    fun outcome isOutcome => keptLast outcome (kept outcome isOutcome)⟩

/-! ## What is known of the outcomes -/

/-- Every outcome so far stands in this relation to the key of its request. -/
def Answered
    (holds : Key → Outcome → Prop)
    (requests : Requests Key Outcome) : Prop :=
  ∀ (index : Nat) (ticket : Ticket Key Outcome),
    requests.issued[index]? = some ticket →
    ∀ outcome ∈ ticket.outcome, holds ticket.key outcome

section Answered

variable {holds : Key → Outcome → Prop}

theorem answered_empty : (empty : Requests Key Outcome).Answered holds := by
  intro index ticket found
  simp [empty] at found

theorem Answered.mono
    {weaker : Key → Outcome → Prop}
    (answered : requests.Answered holds)
    (implies : ∀ key outcome, holds key outcome → weaker key outcome) :
    requests.Answered weaker :=
  fun index ticket found outcome isOutcome =>
    implies _ _ (answered index ticket found outcome isOutcome)

theorem Answered.withdraw (answered : requests.Answered holds) :
    requests.withdraw.Answered holds := by
  intro index ticket found outcome isOutcome
  unfold Requests.withdraw at found
  split at found
  case h_1 => exact answered index ticket found outcome isOutcome
  case h_2 current isSome =>
    simp only [List.getElem?_modify, Option.map_eq_map,
      Option.map_eq_some_iff] at found
    obtain ⟨old, isOld, rfl⟩ := found
    by_cases same : current = index
    · rw [if_pos same] at isOutcome ⊢
      exact answered index old isOld outcome isOutcome
    · rw [if_neg same] at isOutcome ⊢
      exact answered index old isOld outcome isOutcome

theorem Answered.issue (answered : requests.Answered holds) (key : Key) :
    (requests.issue key).Answered holds := by
  intro index ticket found outcome isOutcome
  unfold Requests.issue at found
  rw [List.getElem?_append] at found
  split at found
  case isTrue => exact answered index ticket found outcome isOutcome
  case isFalse =>
    rw [List.getElem?_singleton] at found
    split at found
    · cases found
      cases isOutcome
    · cases found

theorem Answered.settle
    (answered : requests.Answered holds)
    {settled : Nat}
    {arrived : Outcome}
    (arrives : ∀ ticket, requests.issued[settled]? = some ticket →
      holds ticket.key arrived) :
    (requests.settle settled arrived).Answered holds := by
  intro index ticket found outcome isOutcome
  unfold Requests.settle at found
  simp only [List.getElem?_modify, Option.map_eq_map,
    Option.map_eq_some_iff] at found
  obtain ⟨old, isOld, rfl⟩ := found
  by_cases same : settled = index
  · rw [if_pos same] at isOutcome ⊢
    subst same
    cases isBefore : old.outcome with
    | none =>
        simp only [isBefore, Option.none_or, Option.mem_some] at isOutcome
        subst isOutcome
        exact arrives old isOld
    | some before =>
        simp only [isBefore, Option.some_or, Option.mem_some] at isOutcome
        subst isOutcome
        exact answered _ old isOld _ isBefore
  · rw [if_neg same] at isOutcome ⊢
    exact answered index old isOld outcome isOutcome

end Answered

end Requests
end Foundation
