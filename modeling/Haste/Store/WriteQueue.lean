import Haste.Store.Admission

/-!
# When a write is shed

The count that `acquireWrite` compares with `WriteQueue` is of every call
inside it: of the callers that wait for a slot, and of those that are about to
take a free one or to leave.  So a burst is shed in front of free slots.  A
`WriteQueue` of zero is no bound at all.
-/

namespace Haste
namespace Store

open Foundation

/-- Whether a call that has begun was refused with `ErrBusy`. -/
def Stage.verdict : Stage → Option Bool
  | .fresh => none
  | stage => some stage.isShed

/-- The answer of `acquireWrite` that the rest of `Create` meets. -/
def Stage.admission : Stage → Option Refusal
  | .refused refusal | .turnedAway refusal => some refusal
  | _ => none

theorem Stage.verdict_eq_some
    {stage : Stage}
    (begun : stage ≠ .fresh) :
    stage.verdict = some stage.isShed := by
  cases stage <;> first | rfl | exact absurd rfl begun

namespace Gate

variable {limits : Limits}

/-- `ErrBusy` is decided on arrival: no later step of any call changes it. -/
theorem verdict_step
    (gated : 0 < limits.writeConcurrency)
    {gate : Gate}
    (consistent : gate.Consistent limits)
    (event : GateEvent)
    {call : Nat}
    {shed : Bool}
    (begun : (gate.stage call).verdict = some shed) :
    ((gate.step limits event).stage call).verdict = some shed := by
  have notFresh : ∀ other, gate.stage other = .fresh → call ≠ other := by
    rintro other fresh rfl
    rw [fresh] at begun
    cases begun
  rw [← begun]
  have change := step_change gated gate event
  generalize gate.step limits event = next at change ⊢
  cases change with
  | nothing => rfl
  | rejects other error fresh =>
      rw [move_stage, Function.update_of_ne (notFresh other fresh)]
  | sheds other fresh bounded beyond =>
      rw [move_stage, Function.update_of_ne (notFresh other fresh)]
  | counts other fresh within =>
      rw [move_stage, Function.update_of_ne (notFresh other fresh)]
  | sends other choice counted free takesIt =>
      apply measure_move Stage.verdict counted
      rfl
  | givesUp other choice counted leavesIt =>
      apply measure_move Stage.verdict counted
      rfl
  | blocks other choice counted full =>
      apply measure_move Stage.verdict counted
      rfl
  | marks other => rfl
  | wakes other waiting =>
      apply measure_move Stage.verdict waiting
      rfl
  | turnsAway other refusal refused =>
      cases refusal with
      | busy =>
          apply measure_move Stage.verdict refused
          rfl
      | cancelled =>
          apply measure_move Stage.verdict refused
          rfl
  | admits other admitted =>
      apply measure_move Stage.verdict admitted
      rfl
  | returns other answer writing alone =>
      apply measure_move Stage.verdict writing
      rfl
  | handsOver other answer writing first rest line =>
      have returned : ((gate.move other (.returned answer)).stage call).verdict =
          (gate.stage call).verdict := by
        apply measure_move Stage.verdict writing
        rfl
      rw [← returned]
      apply measure_move Stage.verdict
        (consistent.first_still_waiting writing line _)
      rfl

theorem verdict_run
    (gated : 0 < limits.writeConcurrency)
    {gate : Gate}
    (consistent : gate.Consistent limits)
    (events : List GateEvent)
    {call : Nat}
    {shed : Bool}
    (begun : (gate.stage call).verdict = some shed) :
    ((run limits gate events).stage call).verdict = some shed := by
  have both : (run limits gate events).Consistent limits ∧
      ((run limits gate events).stage call).verdict = some shed :=
    Runs.invariant_run_of_forall
      (fun gate : Gate =>
        gate.Consistent limits ∧ (gate.stage call).verdict = some shed)
      (fun _ event before =>
        ⟨before.1.step gated event, verdict_step gated before.1 event before.2⟩)
      ⟨consistent, begun⟩
  exact both.2

/-- A call is shed on arrival if and only if there is a bound and the count
with the call itself is over it. -/
theorem verdict_arrive
    (gated : 0 < limits.writeConcurrency)
    {gate : Gate}
    {call : Nat}
    (fresh : gate.stage call = .fresh) :
    ((gate.step limits (.arrive call)).stage call).verdict =
      some (decide (0 < limits.writeQueue ∧
        (limits.writeQueue : Int) < gate.queued + 1)) := by
  simp only [step, fresh, arrive, if_neg gated.ne']
  split
  case isTrue beyond =>
    rw [decide_eq_true beyond, move_stage, Function.update_self]
    rfl
  case isFalse within =>
    rw [decide_eq_false within, move_stage, Function.update_self]
    rfl

/-- Every slot is taken, and as many callers as may are waiting for one. -/
def Full (limits : Limits) (gate : Gate) : Prop :=
  gate.slots = limits.writeConcurrency ∧
    limits.writeQueue ≤ gate.waiters.length

/-- The count speaks of the callers that wait: it is within the bound, or the
line alone reaches the bound.  Without a bound, a slot is free. -/
def CountsWaiters (limits : Limits) (gate : Gate) : Prop :=
  if 0 < limits.writeQueue then
    gate.queued < limits.writeQueue ∨ limits.writeQueue ≤ gate.waiters.length
  else gate.slots < limits.writeConcurrency

/-- Every caller that waits is counted. -/
theorem Consistent.length_waiters_le
    {gate : Gate}
    (consistent : gate.Consistent limits) :
    (gate.waiters.length : Int) ≤ gate.queued := by
  obtain ⟨count, sameCount, census⟩ := consistent.queueCounted
  rw [sameCount, ← List.toFinset_card_of_nodup consistent.waiters_nodup,
    Int.ofNat_le]
  apply census.card_le
  intro call present
  rw [List.mem_toFinset, consistent.mem_waiters] at present
  rw [present]
  rfl

/-- The comparison of the count is right about a full gate exactly when the
count speaks of the callers that wait. -/
theorem Consistent.over_iff_full
    {gate : Gate}
    (consistent : gate.Consistent limits) :
    (0 < limits.writeQueue ∧ (limits.writeQueue : Int) < gate.queued + 1 ↔
        gate.Full limits) ↔
      gate.CountsWaiters limits := by
  have counted := consistent.length_waiters_le
  have within := consistent.slots_le
  unfold Full CountsWaiters
  by_cases bounded : 0 < limits.writeQueue
  · rw [if_pos bounded]
    -- A line that reaches a positive bound is not empty, so no slot is free.
    have full : limits.writeQueue ≤ gate.waiters.length →
        gate.slots = limits.writeConcurrency := by
      intro long
      apply consistent.full_of_waiters
      rintro none
      rw [none, List.length_nil] at long
      omega
    constructor
    · intro agree
      by_cases few : gate.queued < limits.writeQueue
      · exact Or.inl few
      · exact Or.inr (agree.mp ⟨bounded, by omega⟩).2
    · rintro (few | long)
      · exact iff_of_false (by omega) (by omega)
      · exact iff_of_true ⟨bounded, by omega⟩ ⟨full long, long⟩
  · rw [if_neg bounded]
    have none : limits.writeQueue = 0 := by omega
    constructor
    · intro agree
      by_contra taken
      exact bounded (agree.mpr ⟨by omega, by omega⟩).1
    · intro free
      exact iff_of_false (fun beyond => bounded beyond.1) (by omega)

/-- **Shedding.**  In every run, a call is refused with `ErrBusy`, then or
later, exactly when at its arrival every slot is taken and `WriteQueue` callers
are waiting, if and only if at its arrival the count speaks of the callers that
wait. -/
theorem shed_iff_full
    (limits : Limits)
    (gated : 0 < limits.writeConcurrency)
    (before after : List GateEvent)
    (call : Nat)
    (fresh : (run limits start before).stage call = .fresh) :
    (((run limits start (before ++ .arrive call :: after)).stage call).isShed ↔
        (run limits start before).Full limits) ↔
      (run limits start before).CountsWaiters limits := by
  have consistent := run_consistent gated before
  have final := verdict_run gated (consistent.step gated (.arrive call)) after
    (verdict_arrive gated fresh)
  rw [← run_append_cons] at final
  have begun :
      (run limits start (before ++ .arrive call :: after)).stage call ≠
        .fresh := by
    intro stillFresh
    rw [stillFresh] at final
    cases final
  rw [Stage.verdict_eq_some begun, Option.some.injEq] at final
  rw [← consistent.over_iff_full, final, decide_eq_true_iff]

/-- A call that `acquireWrite` turns away answers the refusal and leaves the
database as it is. -/
theorem create_of_turnedAway
    {gate : Gate}
    {call : Nat}
    {refusal : Refusal}
    (away : gate.stage call = .turnedAway refusal)
    {options : Options}
    {env : Env}
    (meets : (gate.stage call).admission = env.admission)
    {request : Request}
    {title : Go.Bytes}
    (acceptable : checkRequest options request = .ok title)
    (db : Database) :
    create options env request db = (.error refusal.error, db) := by
  rw [away] at meets
  unfold create
  rw [acceptable, ← meets]
  rfl

/-- A caller that finds the slot taken and nobody in line waits, and is served
in its turn. -/
theorem shed_iff_full_second :
    (run ⟨1, 1⟩ start [.arrive 0, .select 0 true, .leave 0]).stage 1 = .fresh ∧
    ((((run ⟨1, 1⟩ start ([.arrive 0, .select 0 true, .leave 0] ++
        .arrive 1 :: [.select 1 true])).stage 1).isShed ↔
      (run ⟨1, 1⟩ start [.arrive 0, .select 0 true, .leave 0]).Full ⟨1, 1⟩) ↔
      (run ⟨1, 1⟩ start
        [.arrive 0, .select 0 true, .leave 0]).CountsWaiters ⟨1, 1⟩) :=
  ⟨rfl, shed_iff_full ⟨1, 1⟩ (by decide) [.arrive 0, .select 0 true, .leave 0]
    [.select 1 true] 1 rfl⟩

/-- Two callers arrive before either selects: the second is refused although no
slot is taken.  With `WriteQueue` at zero a caller that finds the only slot
taken is not refused but waits. -/
theorem shed_before_free_slot :
    ((run ⟨1, 1⟩ start [.arrive 0, .arrive 1]).stage 1).isShed = true ∧
    (run ⟨1, 1⟩ start [.arrive 0]).slots = 0 ∧
    ¬(run ⟨1, 1⟩ start [.arrive 0]).Full ⟨1, 1⟩ ∧
    (run ⟨1, 0⟩ start [.arrive 0, .select 0 true, .leave 0]).Full ⟨1, 0⟩ ∧
    ((run ⟨1, 0⟩ start
      [.arrive 0, .select 0 true, .leave 0, .arrive 1]).stage 1).isShed = false :=
  ⟨rfl, rfl, fun full => absurd full.1 (by decide), ⟨rfl, Nat.le_refl 0⟩, rfl⟩

end Gate

end Store
end Haste
