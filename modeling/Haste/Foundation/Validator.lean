import Haste.Foundation.Runs
import Mathlib.Logic.Function.Basic

/-!
# Documents kept with their validator

A client keeps the document it was last sent under a key, with the tag that came
with it, and offers the tag the next time.  The origin may then answer that the
document has not changed instead of sending it.  If tags name documents, what the
client shows is the document of the origin at that moment, unless two documents
have a tag in common.
-/

namespace Foundation
namespace Validator

variable {Key Tag Doc : Type*}

/-- What a client is answered: that its document is still the one, or a document,
perhaps with a tag. -/
inductive Reply (Tag Doc : Type*)
  | notModified
  | document (tag : Option Tag) (doc : Doc)

/-- The documents a client has kept. -/
abbrev Kept (Key Tag Doc : Type*) := Key → Option (Tag × Doc)

namespace Kept

/-- Nothing kept yet. -/
def empty : Kept Key Tag Doc := fun _ => none

/-- The tag to offer for a key. -/
def offered (kept : Kept Key Tag Doc) (key : Key) : Option Tag :=
  (kept key).map Prod.fst

/-- What a client shows of an answer. -/
def shown (kept : Kept Key Tag Doc) (key : Key) : Reply Tag Doc → Option Doc
  | .notModified => (kept key).map Prod.snd
  | .document _ doc => some doc

/-- What a client keeps of an answer. -/
def receive [DecidableEq Key] (kept : Kept Key Tag Doc) (key : Key) :
    Reply Tag Doc → Kept Key Tag Doc
  | .document (some tag) doc => Function.update kept key (some (tag, doc))
  | _ => kept

end Kept

variable (names : Tag → Doc → Prop) (good : Key → Prop)

/-- The reply to an offered tag by an origin with this document. -/
structure Honest
    (offered : Option Tag)
    (doc : Doc)
    (reply : Reply Tag Doc) : Prop where
  unchanged : reply = .notModified → ∃ tag ∈ offered, names tag doc
  sent : ∀ tag sent, reply = .document tag sent →
    sent = doc ∧ ∀ own ∈ tag, names own doc

/-- What is kept under the good keys is kept with a tag that names it. -/
def Consistent (kept : Kept Key Tag Doc) : Prop :=
  ∀ key, good key → ∀ tag doc, kept key = some (tag, doc) → names tag doc

theorem consistent_empty :
    Consistent names good (Kept.empty : Kept Key Tag Doc) :=
  fun _ _ _ _ found => by cases found

variable {names good} [DecidableEq Key]

/-- An honest reply under a good key, and any reply under another, leaves what is
kept consistent. -/
theorem Consistent.receive
    {kept : Kept Key Tag Doc}
    (consistent : Consistent names good kept)
    {key : Key}
    {reply : Reply Tag Doc}
    (honest : good key → ∃ offered doc, Honest names offered doc reply) :
    Consistent names good (kept.receive key reply) := by
  intro other isGood tag doc found
  unfold Kept.receive at found
  split at found
  case h_1 ownTag own =>
    by_cases same : other = key
    · subst same
      rw [Function.update_self, Option.some.injEq, Prod.mk.injEq] at found
      obtain ⟨rfl, rfl⟩ := found
      obtain ⟨offered, current, isHonest⟩ := honest isGood
      obtain ⟨rfl, named⟩ := isHonest.sent _ _ rfl
      exact named _ rfl
    · rw [Function.update_of_ne same] at found
      exact consistent other isGood tag doc found
  case h_2 => exact consistent other isGood tag doc found

omit [DecidableEq Key] in
/-- What a client shows is the current document, unless the one it has kept has a
tag in common with it. -/
theorem Consistent.shown
    {kept : Kept Key Tag Doc}
    (consistent : Consistent names good kept)
    {key : Key}
    (isGood : good key)
    {doc : Doc}
    {reply : Reply Tag Doc}
    (honest : Honest names (kept.offered key) doc reply) :
    kept.shown key reply = some doc ∨
      ∃ tag stale, kept key = some (tag, stale) ∧ stale ≠ doc ∧
        names tag stale ∧ names tag doc := by
  cases reply with
  | document tag sent =>
      exact Or.inl (congrArg some (honest.sent tag sent rfl).1)
  | notModified =>
      obtain ⟨tag, isOffered, named⟩ := honest.unchanged rfl
      obtain ⟨⟨keptTag, stale⟩, isKept, rfl⟩ := Option.map_eq_some_iff.mp isOffered
      by_cases same : stale = doc
      · exact Or.inl (by simp [Kept.shown, isKept, same])
      · exact Or.inr ⟨keptTag, stale, isKept, same,
          consistent key isGood keptTag stale isKept, named⟩

end Validator
end Foundation
