import Haste.Foundation.Runs
import Mathlib.Algebra.Order.Group.Int
import Mathlib.Data.List.Induction

/-!
# A value remembered for a while

A cache keeps the last value fetched and the instant of the fetch, and fetches
again only once a window has passed.  The clock is whatever the callers read:
nothing is assumed of its order.  Every answer is then a value that was fetched
less than a window before, and after a fetch that succeeds there is none for a
window.
-/

namespace Foundation

/-- The last value fetched, and when. -/
structure Cache (Value : Type*) where
  fetchedAt : Option Int
  value : Value

namespace Cache

variable {Value Failure : Type*}

/-- A cache that holds nothing yet. -/
def empty [Inhabited Value] : Cache Value := ⟨none, default⟩

/-- The value may still be answered. -/
def recent (window now : Int) (cache : Cache Value) : Bool :=
  match cache.fetchedAt with
  | none => false
  | some fetchedAt => decide (now - fetchedAt < window)

/-- Answer the value remembered, or what a fetch gives, which is remembered if it
succeeds. -/
def ask
    (window now : Int)
    (fetched : Except Failure Value)
    (cache : Cache Value) : Except Failure Value × Cache Value :=
  if cache.recent window now then (.ok cache.value, cache)
  else match fetched with
    | .ok value => (.ok value, ⟨some now, value⟩)
    | .error failure => (.error failure, cache)

theorem recent_iff
    {window now : Int}
    {cache : Cache Value} :
    cache.recent window now = true ↔
      ∃ fetchedAt, cache.fetchedAt = some fetchedAt ∧
        now - fetchedAt < window := by
  unfold recent
  cases cache.fetchedAt <;> simp

/-- What is asked is answered from the cache, from a fetch, or not at all. -/
theorem ask_cases
    (window now : Int)
    (fetched : Except Failure Value)
    (cache : Cache Value) :
    (cache.recent window now = true ∧
        cache.ask window now fetched = (.ok cache.value, cache)) ∨
      (cache.recent window now = false ∧
        ((∃ value, fetched = .ok value ∧
            cache.ask window now fetched = (.ok value, ⟨some now, value⟩)) ∨
          ∃ failure, fetched = .error failure ∧
            cache.ask window now fetched = (.error failure, cache))) := by
  unfold ask
  cases isRecent : cache.recent window now with
  | true => exact Or.inl ⟨rfl, rfl⟩
  | false =>
      cases fetched with
      | ok value => exact Or.inr ⟨rfl, Or.inl ⟨value, rfl, rfl⟩⟩
      | error failure => exact Or.inr ⟨rfl, Or.inr ⟨failure, rfl, rfl⟩⟩

/-- No answer means that nothing recent is remembered and that the fetch
failed. -/
theorem ask_eq_error
    {window now : Int}
    {fetched : Except Failure Value}
    {cache : Cache Value}
    {failure : Failure}
    (failed : (cache.ask window now fetched).1 = .error failure) :
    cache.recent window now = false ∧ fetched = .error failure := by
  rcases ask_cases window now fetched cache with
    ⟨-, same⟩ | ⟨isStale, ⟨value, -, same⟩ | ⟨other, isFailed, same⟩⟩
  · rw [same] at failed
    cases failed
  · rw [same] at failed
    cases failed
  · rw [same] at failed
    cases failed
    exact ⟨isStale, isFailed⟩

/-! ## A machine with a cache in front -/

/-- What happens to a machine with a cache in front: one of its own actions, or a
question at an instant. -/
inductive Act (Action Query : Type*)
  | own (action : Action)
  | ask (now : Int) (query : Query)

section Machine

variable
  {State Action Query : Type*}
  [Inhabited Value]
  (step : State → Action → State)
  (forgets : Action → Bool)
  (window : Int)
  (fetch : Query → State → Except Failure Value)

/-- One step of the machine and its cache.  Some actions start with a new
cache. -/
def react
    (state : State × Cache Value) :
    Act Action Query → State × Cache Value
  | .own action =>
      (step state.1 action, if forgets action then empty else state.2)
  | .ask now query => (state.1, (state.2.ask window now (fetch query state.1)).2)

/-- The fetches of a run: when, and whether a value came. -/
def fetches : State × Cache Value → List (Act Action Query) → List (Int × Bool)
  | _, [] => []
  | state, act :: rest =>
      (match act with
        | .own _ => []
        | .ask now query =>
            if state.2.recent window now then []
            else [(now, (fetch query state.1).isOk)]) ++
        fetches (react step forgets window fetch state act) rest

variable {step forgets window fetch}

/-- What is remembered after a run was fetched by one of its steps, and nothing
after that step forgets it. -/
theorem fetched_run
    {state : State}
    {acts : List (Act Action Query)}
    {fetchedAt : Int}
    (remembered : (Runs.run (react step forgets window fetch)
      (state, empty) acts).2.fetchedAt = some fetchedAt) :
    ∃ before query after, acts = before ++ .ask fetchedAt query :: after ∧
      (∀ action, .own action ∈ after → forgets action = false) ∧
      fetch query (Runs.run (react step forgets window fetch)
        (state, empty) before).1 =
          .ok (Runs.run (react step forgets window fetch)
            (state, empty) acts).2.value := by
  induction acts using List.reverseRecOn generalizing fetchedAt with
  | nil => cases remembered
  | append_singleton acts act inductionHypothesis =>
      rw [Runs.run_append] at remembered ⊢
      generalize reached : Runs.run (react step forgets window fetch)
        (state, empty) acts = middle at remembered inductionHypothesis ⊢
      simp only [Runs.run_cons, Runs.run_nil] at remembered ⊢
      cases act with
      | own action =>
          cases isForgotten : forgets action with
          | true =>
              simp only [react, isForgotten, if_true] at remembered
              cases remembered
          | false =>
              simp only [react, isForgotten] at remembered ⊢
              obtain ⟨before, query, after, rfl, kept, fetched⟩ :=
                inductionHypothesis remembered
              refine ⟨before, query, after ++ [.own action], by simp, ?_, fetched⟩
              intro other listed
              rcases List.mem_append.mp listed with earlier | last
              · exact kept other earlier
              · obtain rfl := Act.own.inj (List.mem_singleton.mp last)
                exact isForgotten
      | ask now query =>
          rcases ask_cases window now (fetch query middle.1) middle.2 with
            ⟨-, same⟩ | ⟨-, ⟨value, fetched, same⟩ | ⟨failure, -, same⟩⟩
          · simp only [react, same] at remembered ⊢
            obtain ⟨before, other, after, rfl, kept, fetched⟩ :=
              inductionHypothesis remembered
            exact ⟨before, other, after ++ [.ask now query], by simp,
              by simpa using kept, fetched⟩
          · simp only [react, same, Option.some.injEq] at remembered ⊢
            subst remembered
            exact ⟨acts, query, [], rfl, by simp, by rw [reached]; exact fetched⟩
          · simp only [react, same] at remembered ⊢
            obtain ⟨before, other, after, rfl, kept, fetched⟩ :=
              inductionHypothesis remembered
            exact ⟨before, other, after ++ [.ask now query], by simp,
              by simpa using kept, fetched⟩

/-- A question is answered with a value that was fetched less than a window
before, at this step or an earlier one. -/
theorem answered_recently
    (positive : 0 < window)
    {state : State}
    {acts : List (Act Action Query)}
    {now : Int}
    {query : Query}
    {value : Value}
    (answered : ((Runs.run (react step forgets window fetch)
      (state, empty) acts).2.ask window now (fetch query
        (Runs.run (react step forgets window fetch) (state, empty) acts).1)).1 =
          .ok value) :
    ∃ before fetchedAt source after,
      acts ++ [.ask now query] = before ++ .ask fetchedAt source :: after ∧
      (∀ action, .own action ∈ after → forgets action = false) ∧
      now - fetchedAt < window ∧
      fetch source (Runs.run (react step forgets window fetch)
        (state, empty) before).1 = .ok value := by
  rcases ask_cases window now (fetch query
      (Runs.run (react step forgets window fetch) (state, empty) acts).1)
      (Runs.run (react step forgets window fetch) (state, empty) acts).2 with
    ⟨isRecent, same⟩ | ⟨-, ⟨other, fetched, same⟩ | ⟨failure, -, same⟩⟩
  · rw [same] at answered
    cases answered
    obtain ⟨fetchedAt, remembered, within⟩ := recent_iff.mp isRecent
    obtain ⟨before, source, after, split, kept, fetched⟩ :=
      fetched_run remembered
    refine ⟨before, fetchedAt, source, after ++ [.ask now query], ?_,
      by simpa using kept, within, fetched⟩
    rw [split]
    simp
  · rw [same] at answered
    cases answered
    exact ⟨acts, now, query, [], rfl, by simp, by omega, fetched⟩
  · rw [same] at answered
    cases answered

/-- While nothing is forgotten, a fetch that succeeds is the last for a window. -/
theorem fetches_spaced
    (nonnegative : 0 ≤ window)
    {acts : List (Act Action Query)}
    (kept : ∀ action, .own action ∈ acts → forgets action = false)
    (state : State × Cache Value) :
    (∀ fetchedAt ∈ state.2.fetchedAt,
        ∀ later ∈ fetches step forgets window fetch state acts,
          fetchedAt + window ≤ later.1) ∧
      (fetches step forgets window fetch state acts).Pairwise
        (fun earlier later =>
          earlier.2 = true → earlier.1 + window ≤ later.1) := by
  induction acts generalizing state with
  | nil => exact ⟨fun _ _ _ listed => absurd listed List.not_mem_nil,
      List.Pairwise.nil⟩
  | cons act rest inductionHypothesis =>
      have keptRest : ∀ action, .own action ∈ rest → forgets action = false :=
        fun action listed => kept action (List.mem_cons_of_mem _ listed)
      obtain ⟨after, spaced⟩ := inductionHypothesis keptRest
        (react step forgets window fetch state act)
      cases act with
      | own action =>
          have next : react step forgets window fetch state (.own action) =
              (step state.1 action, state.2) := by
            simp [react, kept action List.mem_cons_self]
          rw [next] at after spaced
          simp only [fetches, next, List.nil_append]
          exact ⟨after, spaced⟩
      | ask now query =>
          have waited : state.2.recent window now = false →
              ∀ fetchedAt ∈ state.2.fetchedAt, fetchedAt + window ≤ now := by
            intro isStale fetchedAt remembered
            by_contra early
            have isRecent := recent_iff.mpr
              ⟨fetchedAt, remembered, show now - fetchedAt < window by omega⟩
            cases isStale.symm.trans isRecent
          rcases ask_cases window now (fetch query state.1) state.2 with
            ⟨isRecent, same⟩ |
              ⟨isStale, ⟨value, fetched, same⟩ | ⟨failure, failed, same⟩⟩
          · have next : react step forgets window fetch state
                (.ask now query) = state := by
              simp only [react, same]
            rw [next] at after spaced
            simp only [fetches, next, isRecent, if_true, List.nil_append]
            exact ⟨after, spaced⟩
          · have next : react step forgets window fetch state
                (.ask now query) = (state.1, ⟨some now, value⟩) := by
              simp only [react, same]
            rw [next] at after spaced
            have beyond := after now rfl
            simp only [fetches, next, isStale, fetched, Except.isOk, Except.toBool,
              Bool.false_eq_true, if_false, List.cons_append, List.nil_append]
            refine ⟨fun fetchedAt remembered later listed => ?_,
              List.pairwise_cons.mpr
                ⟨fun later listed _ => beyond later listed, spaced⟩⟩
            have first := waited isStale fetchedAt remembered
            rcases List.mem_cons.mp listed with rfl | others
            · exact first
            · have second := beyond later others
              omega
          · have next : react step forgets window fetch state
                (.ask now query) = state := by
              simp only [react, same]
            rw [next] at after spaced
            simp only [fetches, next, isStale, failed, Except.isOk, Except.toBool,
              Bool.false_eq_true, if_false, List.cons_append, List.nil_append]
            refine ⟨fun fetchedAt remembered later listed => ?_,
              List.pairwise_cons.mpr ⟨nofun, spaced⟩⟩
            rcases List.mem_cons.mp listed with rfl | others
            · exact waited isStale fetchedAt remembered
            · exact after fetchedAt remembered later others

end Machine

end Cache
end Foundation
