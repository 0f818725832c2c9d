import Haste.HttpApi.Read
import Haste.Store.Recency

/-!
# How long a paste may be cached

A cache may keep a response for five minutes, or for the whole seconds left of
the paste's own lifetime.  The operator's lifetimes, which hide a paste as well,
do not shorten that.  So a cache keeps no retired paste exactly when these end
no earlier than what it may keep.
-/

namespace Haste
namespace HttpApi

open Go

theorem number_natCast (count : Nat) : number (count : Int) = itoa count := rfl

/-- The header determines the seconds. -/
theorem cacheControl_injective
    {left right : Nat}
    (same : cacheControl left = cacheControl right) :
    left = right := by
  have differ : ∀ age : Nat, ascii "no-store" ≠
      ascii "public, max-age=" ++ number age ++ ascii ", immutable" := by
    intro age same
    exact absurd (List.cons.inj same).1 (by decide)
  unfold cacheControl at same
  split at same
  case isTrue leftZero =>
    split at same
    case isTrue rightZero => omega
    case isFalse => exact absurd same (differ right)
  case isFalse =>
    split at same
    case isTrue => exact absurd same.symm (differ left)
    case isFalse =>
      rw [List.append_left_inj, List.append_right_inj, number_natCast,
        number_natCast] at same
      exact itoa_injective same

/-- The deadline is no earlier than the end of what a cache may keep: of five
minutes, or of the whole seconds left of the paste's own lifetime.  A paste with
less than a second left is not cached. -/
def Outlasts (now : Int) (expiresAt : Option Int) (deadline : Int) : Prop :=
  now + cacheSeconds * second ≤ deadline ∨
    ∃ own ∈ expiresAt, own - now < second ∨
      now + (own - now) / second * second ≤ deadline

theorem maxAge_nonneg (now : Int) (paste : Store.Paste) : 0 ≤ maxAge now paste := by
  unfold maxAge
  split
  · decide
  · simp only
    split
    · exact le_max_right _ _
    · decide

/-- Truncation leaves no second of a duration that has none, and the whole
seconds of any other. -/
theorem tdiv_second (left : Int) :
    left < second ∧ left.tdiv second ≤ 0 ∨
      second ≤ left ∧ left.tdiv second = left / second := by
  rcases lt_or_ge left second with short | long
  · refine Or.inl ⟨short, ?_⟩
    rcases lt_or_ge left 0 with past | future
    · have opposite : 0 ≤ (-left).tdiv second :=
        Int.tdiv_nonneg (by omega) (by decide)
      rw [Int.neg_tdiv] at opposite
      omega
    · rw [Int.tdiv_eq_ediv_of_nonneg future]
      simp only [second] at short ⊢
      omega
  · exact Or.inr ⟨long, Int.tdiv_eq_ediv_of_nonneg ((by decide : (0 : Int) ≤
      second).trans long)⟩

/-- With a lifetime of its own, a paste is cached not at all, for its whole
seconds left, or for five minutes within them. -/
theorem maxAge_cases
    {now own : Int}
    {paste : Store.Paste}
    (expires : paste.expiresAt = some own) :
    own - now < second ∧ maxAge now paste = 0 ∨
      second ≤ own - now ∧
        maxAge now paste = min ((own - now) / second) cacheSeconds := by
  unfold maxAge
  simp only [expires]
  rcases tdiv_second (own - now) with ⟨short, none⟩ | ⟨long, whole⟩
  · refine Or.inl ⟨short, ?_⟩
    rw [if_pos (none.trans_lt (by decide)), max_eq_right none]
  · refine Or.inr ⟨long, ?_⟩
    rw [whole]
    simp only [second, cacheSeconds] at long ⊢
    omega

theorem outlasts_iff (now : Int) (paste : Store.Paste) (deadline : Int) :
    Outlasts now paste.expiresAt deadline ↔
      maxAge now paste = 0 ∨ now + maxAge now paste * second ≤ deadline := by
  cases expires : paste.expiresAt with
  | none =>
      have five : maxAge now paste = cacheSeconds := by
        simp only [maxAge, expires]
      simp [Outlasts, five, cacheSeconds]
  | some own =>
      simp only [Outlasts, Option.mem_def, Option.some.injEq, exists_eq_left']
      rcases maxAge_cases expires with ⟨short, uncached⟩ | ⟨long, cached⟩
      · exact iff_of_true (Or.inr (Or.inl short)) (Or.inl uncached)
      · rw [cached]
        simp only [second, cacheSeconds] at long ⊢
        omega

/-- The own lifetime of a paste covers what a cache may keep of it. -/
theorem maxAge_le
    {now own : Int}
    {paste : Store.Paste}
    (expires : paste.expiresAt = some own)
    (cached : maxAge now paste ≠ 0) :
    now + maxAge now paste * second ≤ own := by
  rcases maxAge_cases expires with ⟨-, uncached⟩ | ⟨long, whole⟩
  · exact absurd uncached cached
  · rw [whole]
    simp only [second, cacheSeconds] at long ⊢
    omega

/-! ## Operator lifetimes -/

/-- The first instant from `now` on at which an operator's lifetime hides a
time.  The cutoff of zero, the second of the epoch, hides nothing. -/
def retiresAt (now ttl time : Int) : Int :=
  if time ≤ 0 ∧ (time = 0 ∨ ttl ≤ now) then ttl + second
  else ttl + time * second

theorem withinTTL_disabled
    {ttl : Int}
    (disabled : ttl ≤ 0)
    (now time : Int) :
    Store.withinTTL now ttl time :=
  Or.inl (if_pos disabled)

theorem withinTTL_iff
    {ttl : Int}
    (enabled : 0 < ttl)
    (now time : Int) :
    Store.withinTTL now ttl time ↔
      unix (now - ttl) = 0 ∨ unix (now - ttl) < time := by
  unfold Store.withinTTL Store.cutoff
  rw [if_neg (not_le.mpr enabled)]

/-- Nothing is hidden up to an instant if and only if it is no later than the
first instant at which something is. -/
theorem withinTTL_until_iff
    {ttl : Int}
    (enabled : 0 < ttl)
    (now till time : Int) :
    (∀ instant, now ≤ instant → instant < till →
        Store.withinTTL instant ttl time) ↔
      till ≤ now ∨ till ≤ retiresAt now ttl time := by
  simp only [withinTTL_iff enabled, unix, second, retiresAt]
  constructor
  · intro within
    by_contra late
    rw [not_or, not_le, not_le] at late
    obtain ⟨some, late⟩ := late
    split at late
    case isTrue =>
      have hidden := within (max now (ttl + 1000000000)) (by omega) (by omega)
      omega
    case isFalse =>
      have hidden := within (max now (ttl + time * 1000000000)) (by omega)
        (by omega)
      omega
  · intro early instant after before
    split at early <;> omega

/-- An operator's lifetime hides nothing while a response may be cached if and
only if it is disabled or outlasts that. -/
theorem withinTTL_while_cached_iff
    (now ttl time : Int)
    (paste : Store.Paste) :
    (∀ instant, now ≤ instant → instant < now + maxAge now paste * second →
        Store.withinTTL instant ttl time) ↔
      (0 < ttl → Outlasts now paste.expiresAt (retiresAt now ttl time)) := by
  by_cases enabled : 0 < ttl
  · rw [withinTTL_until_iff enabled, outlasts_iff, forall_prop_of_true enabled]
    have nonneg := maxAge_nonneg now paste
    simp only [second]
    omega
  · have disabled := withinTTL_disabled (not_lt.mp enabled)
    exact iff_of_true (fun instant _ _ => disabled instant time)
      fun positive => absurd positive enabled

/-! ## What a cache may keep -/

/-- A row that is read is found again, if nothing else happens, exactly at the
instants at which it is visible. -/
theorem get_ne_notFound_iff
    {options : Store.Options}
    {env : Store.Env}
    {code : Bytes}
    {db : Store.Database}
    {found : Store.Paste × Bytes}
    (read : Store.get options env code db = .ok found)
    {row : Store.Row}
    (present : row ∈ db.pastes.rows)
    (sameCode : row.code = code)
    (instant : Int) :
    Store.get options (.calm instant) code db ≠ .error .notFound ↔
      Store.visible options instant row = true := by
  have wellFormed : Id.valid code ≠ false := by
    intro malformed
    have missing : Store.get options env code db = .error .notFound :=
      Store.get_eq_notFound_iff.mpr (Or.inl malformed)
    rw [read] at missing
    cases missing
  have hidden_iff :
      Store.get options (.calm instant) code db = .error .notFound ↔
        ∀ other ∈ db.pastes.rows, other.code = code →
          Store.visible options instant other = false := by
    rw [Store.get_eq_notFound_iff, or_iff_right wellFormed]
    exact and_iff_right rfl
  rw [Ne, hidden_iff]
  constructor
  · intro shown
    by_contra hidden
    apply shown
    intro other otherPresent otherCode
    rw [Store.Pastes.eq_of_code_eq otherPresent present
      (otherCode.trans sameCode.symm)]
    exact Bool.eq_false_iff.mpr hidden
  · intro isVisible hidden
    rw [hidden row present sameCode] at isVisible
    cases isVisible

/-- **Caching.**  Whatever route serves a paste, the seconds its response may be
cached for end before any instant at which `Get` would answer that there is no
such paste, if and only if each of the operator's lifetimes that is set outlasts
them. -/
theorem cached_while_served_iff
    (route : Route)
    (config : Config)
    (texts : Texts)
    (options : Store.Options)
    (env : Store.Env)
    (db : Store.Database)
    (request : Incoming)
    (now : Int)
    (paste : Store.Paste)
    (content : Bytes)
    (row : Store.Row)
    (read : Store.get options env request.code db = .ok (paste, content))
    (present : row ∈ db.pastes.rows)
    (sameCode : row.code = request.code) :
    (∀ age : Nat,
      (route.handle config texts now request
        (Store.get options env request.code db)).header.values "Cache-Control" =
          [cacheControl age] →
      ∀ instant, now ≤ instant → instant < now + age * second →
        Store.get options (.calm instant) request.code db ≠ .error .notFound) ↔
      (0 < options.ttlAccess → Outlasts now paste.expiresAt
        (retiresAt now options.ttlAccess row.accessedAt)) ∧
      (0 < options.ttlCreate → Outlasts now paste.expiresAt
        (retiresAt now options.ttlCreate row.createdAt)) := by
  -- The row that was read is the one with the code.
  obtain ⟨other, otherPresent, otherCode, -, isPaste, -⟩ := Store.get_eq_ok read
  obtain rfl : other = row :=
    Store.Pastes.eq_of_code_eq otherPresent present
      (otherCode.trans sameCode.symm)
  have expires : paste.expiresAt = other.expiresAt.map ofUnix := by
    rw [isPaste]
    rfl
  have unexpired : ∀ instant, now ≤ instant →
      instant < now + maxAge now paste * second → other.unexpired instant := by
    intro instant after before own isOwn
    have cached : maxAge now paste ≠ 0 := by
      intro none
      rw [none] at before
      omega
    have covered := maxAge_le (expires.trans (congrArg _ isOwn)) cached
    simp only [unix, ofUnix, second] at covered before ⊢
    omega
  obtain ⟨age, isAge⟩ := Int.eq_ofNat_of_zero_le (maxAge_nonneg now paste)
  rw [read, (route.handle_ok config texts now request paste content).2, isAge,
    ← withinTTL_while_cached_iff, ← withinTTL_while_cached_iff, isAge]
  rw [isAge] at unexpired
  simp only [get_ne_notFound_iff read present sameCode, Store.visible_iff]
  constructor
  · intro shown
    constructor
    · intro instant after before
      exact (shown age rfl instant after before).2.1
    · intro instant after before
      exact (shown age rfl instant after before).2.2
  · rintro ⟨access, creation⟩ other sameHeader instant after before
    obtain rfl : age = other :=
      cacheControl_injective (List.singleton_inj.mp sameHeader)
    exact ⟨unexpired instant after before, access instant after before,
      creation instant after before⟩

/-- The first paste at 105 seconds, five seconds after its last access. -/
theorem get_first :
    Store.get Store.Options.brief (.calm (ofUnix 105)) Incoming.first.code
      Store.firstStored = .ok (Store.firstPaste, ascii "a") := by
  decide +kernel

theorem cached_while_served_first :
    ∃ row ∈ Store.firstStored.pastes.rows, row.code = Incoming.first.code ∧
      ((∀ age : Nat,
        (Route.raw.handle .unset .small (ofUnix 105) .first
          (Store.get Store.Options.brief (.calm (ofUnix 105))
            Incoming.first.code Store.firstStored)).header.values
            "Cache-Control" = [cacheControl age] →
        ∀ instant, ofUnix 105 ≤ instant →
          instant < ofUnix 105 + age * second →
          Store.get Store.Options.brief (.calm instant) Incoming.first.code
            Store.firstStored ≠ .error .notFound) ↔
        (0 < Store.Options.brief.ttlAccess →
          Outlasts (ofUnix 105) Store.firstPaste.expiresAt
            (retiresAt (ofUnix 105) Store.Options.brief.ttlAccess
              row.accessedAt)) ∧
        (0 < Store.Options.brief.ttlCreate →
          Outlasts (ofUnix 105) Store.firstPaste.expiresAt
            (retiresAt (ofUnix 105) Store.Options.brief.ttlCreate
              row.createdAt))) := by
  obtain ⟨row, present, sameCode, -⟩ := Store.get_eq_ok get_first
  exact ⟨row, present, sameCode,
    cached_while_served_iff .raw .unset .small Store.Options.brief
      (.calm (ofUnix 105)) Store.firstStored .first (ofUnix 105)
      Store.firstPaste (ascii "a") row get_first present sameCode⟩

/-- With ten seconds to live since the last access, the first paste may be cached
for five minutes at 105 seconds, and `Get` does not find it at 110 seconds. -/
theorem cached_after_retired :
    (Route.raw.handle .unset .small (ofUnix 105) .first
      (Store.get Store.Options.brief (.calm (ofUnix 105)) Incoming.first.code
        Store.firstStored)).header.values "Cache-Control" =
          [ascii "public, max-age=300, immutable"] ∧
    ofUnix 110 < ofUnix 105 + 300 * second ∧
    Store.get Store.Options.brief (.calm (ofUnix 110)) Incoming.first.code
      Store.firstStored = .error .notFound := by
  refine ⟨?_, by decide, by decide +kernel⟩
  rw [get_first]
  decide

end HttpApi
end Haste
