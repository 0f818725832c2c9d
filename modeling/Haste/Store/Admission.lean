import Haste.Foundation.Census
import Haste.Foundation.Runs
import Haste.Store.Create

/-!
# Write admission

Every `Create` passes `acquireWrite` before it compresses: it counts itself,
is refused when the count is over the bound, and otherwise selects between a
slot of the channel and the end of its context.  The slot is given back when
the call returns, whatever it returns.  `Gate` holds what the calls share and
how far each of them has come, and its events are the atomic steps of the
calls, in any order.
-/

namespace Haste
namespace Store

open Foundation

/-- `Options.WriteConcurrency` and `Options.WriteQueue`. -/
structure Limits where
  writeConcurrency : Nat
  writeQueue : Nat

/-- How far a call of `Create` has come. -/
inductive Stage
  /-- It has not come to write admission. -/
  | fresh
  /-- Its own checks have refused it. -/
  | rejected (error : Error)
  /-- It has counted itself and comes to its select next. -/
  | counted
  /-- Its select is blocked. -/
  | waiting
  /-- It has a slot, and is still counted. -/
  | admitted
  /-- It has no slot, and is still counted. -/
  | refused (refusal : Refusal)
  /-- It is past write admission. -/
  | writing
  /-- `acquireWrite` has answered an error, and so has the call. -/
  | turnedAway (refusal : Refusal)
  /-- It has returned after it was admitted. -/
  | returned (answer : Except Error Paste)

namespace Stage

/-- Between admission and return. -/
def holdsSlot : Stage → Bool
  | .admitted | .writing => true
  | _ => false

/-- Between the increment and the decrement of `queued`. -/
def inQueue : Stage → Bool
  | .counted | .waiting | .admitted | .refused _ => true
  | _ => false

/-- Counted, and let past the bound on `queued`. -/
def inLine : Stage → Bool
  | .counted | .waiting | .admitted | .refused .cancelled => true
  | _ => false

/-- Past the first step of `acquireWrite` and not yet returned. -/
def inFlight : Stage → Bool
  | .counted | .waiting | .admitted | .refused _ | .writing => true
  | _ => false

/-- Refused with `ErrBusy`. -/
def isShed : Stage → Bool
  | .refused .busy | .turnedAway .busy => true
  | _ => false

/-- The slots a call has taken so far. -/
def slotsTaken : Stage → Nat
  | .admitted | .writing | .returned _ => 1
  | _ => 0

/-- The slots a call has given back so far. -/
def slotsGiven : Stage → Nat
  | .returned _ => 1
  | _ => 0

end Stage

/-- `writeSlots`, `queued`, and the calls: which contexts are done, and how far
each call has come. -/
structure Gate where
  /-- `len(writeSlots)` -/
  slots : Nat
  queued : Int
  /-- The senders blocked on `writeSlots`, in the order they will be served. -/
  waiters : List Nat
  done : Nat → Bool
  stage : Nat → Stage

/-- The atomic steps of the calls. -/
inductive GateEvent
  /-- The checks `Create` starts with fail. -/
  | reject (call : Nat) (error : Error)
  /-- `s.queued.Add(1)`, and the comparison of what it answers. -/
  | arrive (call : Nat)
  /-- The select begins.  Where both branches are ready it may take either. -/
  | select (call : Nat) (sends : Bool)
  /-- The context of the call is cancelled. -/
  | cancel (call : Nat)
  /-- The deferred `s.queued.Add(-1)`, after which `acquireWrite` returns. -/
  | leave (call : Nat)
  /-- The call returns, and its deferred `releaseWrite` runs. -/
  | finish (call : Nat) (answer : Except Error Paste)

namespace Gate

/-- The gate of a store just opened. -/
def start : Gate where
  slots := 0
  queued := 0
  waiters := []
  done _ := false
  stage _ := .fresh

/-- One call comes to another stage. -/
def move (gate : Gate) (call : Nat) (stage : Stage) : Gate :=
  { gate with stage := Function.update gate.stage call stage }

/-- `acquireWrite` up to the comparison of the count. -/
def arrive (limits : Limits) (gate : Gate) (call : Nat) : Gate :=
  if limits.writeConcurrency = 0 then gate.move call .writing
  else
    let queued := gate.queued + 1
    let gate := { gate with queued }
    if 0 < limits.writeQueue ∧ (limits.writeQueue : Int) < queued then
      gate.move call (.refused .busy)
    else gate.move call .counted

/-- The select of `acquireWrite`.  It blocks where no branch is ready. -/
def select (limits : Limits) (gate : Gate) (call : Nat) (sends : Bool) : Gate :=
  if gate.slots < limits.writeConcurrency ∧ (sends ∨ gate.done call = false) then
    { gate with slots := gate.slots + 1 }.move call .admitted
  else if gate.done call then gate.move call (.refused .cancelled)
  else { gate with waiters := gate.waiters ++ [call] }.move call .waiting

/-- `releaseWrite`: a receive from the full channel takes the slot over for the
sender that has waited longest. -/
def releaseWrite (limits : Limits) (gate : Gate) : Gate :=
  if limits.writeConcurrency = 0 then gate
  else
    match gate.waiters with
    | [] => { gate with slots := gate.slots - 1 }
    | first :: rest => { gate with waiters := rest }.move first .admitted

/-- One step.  What does not apply to the stage of the call does nothing. -/
def step (limits : Limits) (gate : Gate) : GateEvent → Gate
  | .reject call error =>
      match gate.stage call with
      | .fresh => gate.move call (.rejected error)
      | _ => gate
  | .arrive call =>
      match gate.stage call with
      | .fresh => gate.arrive limits call
      | _ => gate
  | .select call sends =>
      match gate.stage call with
      | .counted => gate.select limits call sends
      | _ => gate
  | .cancel call =>
      let gate := { gate with done := Function.update gate.done call true }
      match gate.stage call with
      | .waiting =>
          { gate with waiters := gate.waiters.erase call }.move call
            (.refused .cancelled)
      | _ => gate
  | .leave call =>
      match gate.stage call with
      | .refused refusal =>
          { gate with queued := gate.queued - 1 }.move call (.turnedAway refusal)
      | .admitted => { gate with queued := gate.queued - 1 }.move call .writing
      | _ => gate
  | .finish call answer =>
      match gate.stage call with
      | .writing => (gate.move call (.returned answer)).releaseWrite limits
      | _ => gate

/-- The gate after a run. -/
abbrev run (limits : Limits) (gate : Gate) (events : List GateEvent) : Gate :=
  Runs.run (step limits) gate events

theorem run_append_cons
    (limits : Limits)
    (gate : Gate)
    (before after : List GateEvent)
    (event : GateEvent) :
    run limits gate (before ++ event :: after) =
      run limits ((run limits gate before).step limits event) after := by
  simp only [run, Runs.run_append, Runs.run_cons]

@[simp] theorem move_queued (gate : Gate) (call : Nat) (stage : Stage) :
    (gate.move call stage).queued = gate.queued := rfl

@[simp] theorem move_waiters (gate : Gate) (call : Nat) (stage : Stage) :
    (gate.move call stage).waiters = gate.waiters := rfl

@[simp] theorem move_stage (gate : Gate) (call : Nat) (stage : Stage) :
    (gate.move call stage).stage = Function.update gate.stage call stage := rfl

/-! ## What a step does -/

/-- The call of the event is at a stage from which it takes part in it. -/
def AppliesTo (gate : Gate) : GateEvent → Prop
  | .reject call _ | .arrive call => gate.stage call = .fresh
  | .select call _ => gate.stage call = .counted
  | .cancel _ => True
  | .leave call =>
      gate.stage call = .admitted ∨ ∃ refusal, gate.stage call = .refused refusal
  | .finish call _ => gate.stage call = .writing

/-- The ways a step of a gate with slots changes it. -/
inductive Change
    (limits : Limits)
    (gate : Gate) : GateEvent → Gate → Prop
  | nothing
      (event : GateEvent)
      (idle : ¬AppliesTo gate event) :
      Change limits gate event gate
  | rejects
      (call : Nat)
      (error : Error)
      (fresh : gate.stage call = .fresh) :
      Change limits gate (.reject call error) (gate.move call (.rejected error))
  | sheds
      (call : Nat)
      (fresh : gate.stage call = .fresh)
      (bounded : 0 < limits.writeQueue)
      (beyond : (limits.writeQueue : Int) < gate.queued + 1) :
      Change limits gate (.arrive call)
        ({ gate with queued := gate.queued + 1 }.move call (.refused .busy))
  | counts
      (call : Nat)
      (fresh : gate.stage call = .fresh)
      (within : 0 < limits.writeQueue →
        gate.queued + 1 ≤ (limits.writeQueue : Int)) :
      Change limits gate (.arrive call)
        ({ gate with queued := gate.queued + 1 }.move call .counted)
  | sends
      (call : Nat)
      (choice : Bool)
      (counted : gate.stage call = .counted)
      (free : gate.slots < limits.writeConcurrency)
      (takesIt : choice = true ∨ gate.done call = false) :
      Change limits gate (.select call choice)
        ({ gate with slots := gate.slots + 1 }.move call .admitted)
  | givesUp
      (call : Nat)
      (choice : Bool)
      (counted : gate.stage call = .counted)
      (leavesIt : ¬(gate.slots < limits.writeConcurrency ∧
        (choice = true ∨ gate.done call = false))) :
      Change limits gate (.select call choice)
        (gate.move call (.refused .cancelled))
  | blocks
      (call : Nat)
      (choice : Bool)
      (counted : gate.stage call = .counted)
      (full : limits.writeConcurrency ≤ gate.slots) :
      Change limits gate (.select call choice)
        ({ gate with waiters := gate.waiters ++ [call] }.move call .waiting)
  | marks
      (call : Nat) :
      Change limits gate (.cancel call)
        { gate with done := Function.update gate.done call true }
  | wakes
      (call : Nat)
      (waiting : gate.stage call = .waiting) :
      Change limits gate (.cancel call)
        ({ gate with
            done := Function.update gate.done call true
            waiters := gate.waiters.erase call }.move call (.refused .cancelled))
  | turnsAway
      (call : Nat)
      (refusal : Refusal)
      (refused : gate.stage call = .refused refusal) :
      Change limits gate (.leave call)
        ({ gate with queued := gate.queued - 1 }.move call (.turnedAway refusal))
  | admits
      (call : Nat)
      (admitted : gate.stage call = .admitted) :
      Change limits gate (.leave call)
        ({ gate with queued := gate.queued - 1 }.move call .writing)
  | returns
      (call : Nat)
      (answer : Except Error Paste)
      (writing : gate.stage call = .writing)
      (alone : gate.waiters = []) :
      Change limits gate (.finish call answer)
        { gate.move call (.returned answer) with slots := gate.slots - 1 }
  | handsOver
      (call : Nat)
      (answer : Except Error Paste)
      (writing : gate.stage call = .writing)
      (first : Nat)
      (rest : List Nat)
      (line : gate.waiters = first :: rest) :
      Change limits gate (.finish call answer)
        ({ gate.move call (.returned answer) with waiters := rest }.move first
          .admitted)

variable {limits : Limits}

theorem step_change
    (gated : 0 < limits.writeConcurrency)
    (gate : Gate)
    (event : GateEvent) :
    Change limits gate event (gate.step limits event) := by
  have hasSlots : limits.writeConcurrency ≠ 0 := gated.ne'
  cases event with
  | reject call error =>
      simp only [step]
      split
      case h_1 fresh => exact .rejects call error fresh
      case h_2 other => exact .nothing _ other
  | arrive call =>
      simp only [step]
      split
      case h_1 fresh =>
        simp only [arrive, if_neg hasSlots]
        split
        case isTrue beyond => exact .sheds call fresh beyond.1 beyond.2
        case isFalse within =>
          exact .counts call fresh fun bounded =>
            not_lt.mp fun beyond => within ⟨bounded, beyond⟩
      case h_2 other => exact .nothing _ other
  | select call choice =>
      simp only [step]
      split
      case h_1 counted =>
        unfold select
        split
        case isTrue free => exact .sends call choice counted free.1 free.2
        case isFalse leavesIt =>
          split
          case isTrue => exact .givesUp call choice counted leavesIt
          case isFalse running =>
            refine .blocks call choice counted (not_lt.mp fun free => ?_)
            exact leavesIt ⟨free, Or.inr (Bool.eq_false_iff.mpr running)⟩
      case h_2 other => exact .nothing _ other
  | cancel call =>
      simp only [step]
      split
      case h_1 waiting => exact .wakes call waiting
      case h_2 => exact .marks call
  | leave call =>
      simp only [step]
      split
      case h_1 refusal refused => exact .turnsAway call refusal refused
      case h_2 admitted => exact .admits call admitted
      case h_3 notRefused notAdmitted =>
        refine .nothing _ fun applies => ?_
        rcases applies with admitted | ⟨refusal, refused⟩
        · exact notAdmitted admitted
        · exact notRefused refusal refused
  | finish call answer =>
      simp only [step]
      split
      case h_1 writing =>
        simp only [releaseWrite, if_neg hasSlots]
        split
        case h_1 alone => exact .returns call answer writing alone
        case h_2 first rest line =>
          exact .handsOver call answer writing first rest line
      case h_2 other => exact .nothing _ other

/-! ## The counters count -/

/-- What holds of a gate with slots in every state: the counters count the
calls, neither is over its bound, and only a full channel has senders. -/
structure Consistent (limits : Limits) (gate : Gate) : Prop where
  slotsHeld : Census gate.stage Stage.holdsSlot gate.slots
  slots_le : gate.slots ≤ limits.writeConcurrency
  queueCounted :
    ∃ count : Nat, gate.queued = count ∧ Census gate.stage Stage.inQueue count
  lineBounded : 0 < limits.writeQueue →
    ∃ count ≤ limits.writeQueue, Census gate.stage Stage.inLine count
  waiters_nodup : gate.waiters.Nodup
  mem_waiters : ∀ call, call ∈ gate.waiters ↔ gate.stage call = .waiting
  full_of_waiters : gate.waiters ≠ [] → gate.slots = limits.writeConcurrency

theorem start_consistent : start.Consistent limits where
  slotsHeld := Census.zero fun _ => rfl
  slots_le := Nat.zero_le _
  queueCounted := ⟨0, rfl, Census.zero fun _ => rfl⟩
  lineBounded _ := ⟨0, Nat.zero_le _, Census.zero fun _ => rfl⟩
  waiters_nodup := List.nodup_nil
  mem_waiters call := by simp [start]
  full_of_waiters some := absurd rfl some

namespace Consistent

variable {gate : Gate}

/-- The first call in line waits, so it is not the one that returns. -/
theorem first_waiting
    (consistent : gate.Consistent limits)
    {returning first : Nat}
    {rest : List Nat}
    (writing : gate.stage returning = .writing)
    (line : gate.waiters = first :: rest) :
    gate.stage first = .waiting ∧ first ≠ returning := by
  have waiting : gate.stage first = .waiting :=
    (consistent.mem_waiters first).mp (line ▸ List.mem_cons_self)
  refine ⟨waiting, ?_⟩
  rintro rfl
  rw [writing] at waiting
  cases waiting

theorem first_still_waiting
    (consistent : gate.Consistent limits)
    {returning first : Nat}
    {rest : List Nat}
    (writing : gate.stage returning = .writing)
    (line : gate.waiters = first :: rest)
    (stage : Stage) :
    (gate.move returning stage).stage first = .waiting := by
  obtain ⟨waiting, isOther⟩ := consistent.first_waiting writing line
  rw [move_stage, Function.update_of_ne isOther, waiting]

/-- A call that neither waits nor comes to wait leaves the line as it is. -/
theorem mem_waiters_move
    (consistent : gate.Consistent limits)
    {call : Nat}
    {stage : Stage}
    (before : gate.stage call ≠ .waiting)
    (after : stage ≠ .waiting)
    (other : Nat) :
    other ∈ gate.waiters ↔ (gate.move call stage).stage other = .waiting := by
  rw [consistent.mem_waiters, move_stage]
  by_cases same : other = call
  · rw [same, Function.update_self]
    exact iff_of_false before after
  · rw [Function.update_of_ne same]

/-- A call that stays within each class, or out of it, may move freely. -/
theorem move
    (consistent : gate.Consistent limits)
    {call : Nat}
    {stage : Stage}
    (sameSlot : stage.holdsSlot = (gate.stage call).holdsSlot)
    (sameQueue : stage.inQueue = (gate.stage call).inQueue)
    (sameLine : stage.inLine = (gate.stage call).inLine)
    (before : gate.stage call ≠ .waiting)
    (after : stage ≠ .waiting) :
    (gate.move call stage).Consistent limits where
  slotsHeld := consistent.slotsHeld.stay sameSlot
  slots_le := consistent.slots_le
  queueCounted := by
    obtain ⟨count, sameCount, census⟩ := consistent.queueCounted
    exact ⟨count, sameCount, census.stay sameQueue⟩
  lineBounded bounded := by
    obtain ⟨count, within, census⟩ := consistent.lineBounded bounded
    exact ⟨count, within, census.stay sameLine⟩
  waiters_nodup := consistent.waiters_nodup
  mem_waiters := consistent.mem_waiters_move before after
  full_of_waiters := consistent.full_of_waiters

/-- Which contexts are done is no matter of the counters. -/
theorem mark
    (consistent : gate.Consistent limits)
    (done : Nat → Bool) :
    { gate with done }.Consistent limits :=
  { consistent with }

/-- A fresh call counts itself.  Past the bound it is refused. -/
theorem enterQueue
    (consistent : gate.Consistent limits)
    {call : Nat}
    (fresh : gate.stage call = .fresh)
    {stage : Stage}
    (noSlot : stage.holdsSlot = false)
    (counts : stage.inQueue = true)
    (blocksNot : stage ≠ .waiting)
    (within : stage.inLine = true → 0 < limits.writeQueue →
      gate.queued + 1 ≤ limits.writeQueue) :
    ({ gate with queued := gate.queued + 1 }.move call stage).Consistent
      limits where
  slotsHeld := consistent.slotsHeld.stay (by rw [noSlot, fresh]; rfl)
  slots_le := consistent.slots_le
  queueCounted := by
    obtain ⟨count, sameCount, census⟩ := consistent.queueCounted
    refine ⟨count + 1, ?_, census.enter (by rw [fresh]; rfl) counts⟩
    simp [sameCount]
  lineBounded bounded := by
    obtain ⟨count, countWithin, census⟩ := consistent.lineBounded bounded
    cases inLine : stage.inLine with
    | false =>
        refine ⟨count, countWithin, census.stay ?_⟩
        rw [inLine, fresh]
        rfl
    | true =>
        -- The line is part of what `queued` counts, which has room for one more.
        obtain ⟨all, sameAll, everyone⟩ := consistent.queueCounted
        have lineWithin : count ≤ all := by
          apply census.le_of_imp everyone
          intro other
          cases gate.stage other <;> simp [Stage.inLine, Stage.inQueue]
        have room := within inLine bounded
        exact ⟨count + 1, by omega, census.enter (by rw [fresh]; rfl) inLine⟩
  waiters_nodup := consistent.waiters_nodup
  mem_waiters := consistent.mem_waiters_move (by rw [fresh]; simp) blocksNot
  full_of_waiters := consistent.full_of_waiters

/-- A call that stops being counted keeps the slot it has. -/
theorem leaveQueue
    (consistent : gate.Consistent limits)
    {call : Nat}
    {stage : Stage}
    (sameSlot : stage.holdsSlot = (gate.stage call).holdsSlot)
    (counted : (gate.stage call).inQueue = true)
    (gone : stage.inQueue = false)
    (before : gate.stage call ≠ .waiting) :
    ({ gate with queued := gate.queued - 1 }.move call stage).Consistent
      limits where
  slotsHeld := consistent.slotsHeld.stay sameSlot
  slots_le := consistent.slots_le
  queueCounted := by
    obtain ⟨count, sameCount, census⟩ := consistent.queueCounted
    have some := census.pos_of_mem counted
    obtain ⟨rest, rfl⟩ := Nat.exists_eq_add_of_lt some
    rw [Nat.zero_add] at census
    refine ⟨rest, ?_, census.leave counted gone⟩
    simp [sameCount]
  lineBounded bounded := by
    have out : stage.inLine = false := by
      cases stage <;> simp_all [Stage.inLine, Stage.inQueue]
    obtain ⟨count, within, census⟩ := consistent.lineBounded bounded
    cases inLine : (gate.stage call).inLine with
    | false => exact ⟨count, within, census.stay (by rw [out, inLine])⟩
    | true =>
        obtain ⟨rest, rfl⟩ := Nat.exists_eq_add_of_lt (census.pos_of_mem inLine)
        rw [Nat.zero_add] at census within
        exact ⟨rest, by omega, census.leave inLine out⟩
  waiters_nodup := consistent.waiters_nodup
  mem_waiters := by
    apply consistent.mem_waiters_move before
    rintro rfl
    cases gone
  full_of_waiters := consistent.full_of_waiters

/-- A counted call takes a free slot. -/
theorem send
    (consistent : gate.Consistent limits)
    {call : Nat}
    (counted : gate.stage call = .counted)
    (free : gate.slots < limits.writeConcurrency) :
    ({ gate with slots := gate.slots + 1 }.move call .admitted).Consistent
      limits where
  slotsHeld := consistent.slotsHeld.enter (by rw [counted]; rfl) rfl
  slots_le := free
  queueCounted := by
    obtain ⟨count, sameCount, census⟩ := consistent.queueCounted
    exact ⟨count, sameCount, census.stay (by rw [counted]; rfl)⟩
  lineBounded bounded := by
    obtain ⟨count, within, census⟩ := consistent.lineBounded bounded
    exact ⟨count, within, census.stay (by rw [counted]; rfl)⟩
  waiters_nodup := consistent.waiters_nodup
  mem_waiters := consistent.mem_waiters_move (by rw [counted]; simp) (by simp)
  full_of_waiters some := by
    have full := consistent.full_of_waiters some
    omega

/-- A counted call waits, at the end of the line of a full channel. -/
theorem block
    (consistent : gate.Consistent limits)
    {call : Nat}
    (counted : gate.stage call = .counted)
    (full : limits.writeConcurrency ≤ gate.slots) :
    ({ gate with waiters := gate.waiters ++ [call] }.move call
      .waiting).Consistent limits where
  slotsHeld := consistent.slotsHeld.stay (by rw [counted]; rfl)
  slots_le := consistent.slots_le
  queueCounted := by
    obtain ⟨count, sameCount, census⟩ := consistent.queueCounted
    exact ⟨count, sameCount, census.stay (by rw [counted]; rfl)⟩
  lineBounded bounded := by
    obtain ⟨count, within, census⟩ := consistent.lineBounded bounded
    exact ⟨count, within, census.stay (by rw [counted]; rfl)⟩
  waiters_nodup := by
    have absent : call ∉ gate.waiters := by
      rw [consistent.mem_waiters, counted]
      simp
    exact List.nodup_append.mpr
      ⟨consistent.waiters_nodup, List.nodup_singleton call, by
        intro other present last isLast
        rw [List.mem_singleton.mp isLast]
        exact fun same => absent (same ▸ present)⟩
  mem_waiters other := by
    simp only [move_waiters, List.mem_append, List.mem_singleton, move_stage,
      consistent.mem_waiters]
    by_cases same : other = call
    · simp [same]
    · simp [same]
  full_of_waiters _ := Nat.le_antisymm consistent.slots_le full

/-- A waiting call leaves the line for another stage of the queue. -/
theorem unblock
    (consistent : gate.Consistent limits)
    {call : Nat}
    (waiting : gate.stage call = .waiting) :
    ({ gate with waiters := gate.waiters.erase call }.move call
      (.refused .cancelled)).Consistent limits where
  slotsHeld := consistent.slotsHeld.stay (by rw [waiting]; rfl)
  slots_le := consistent.slots_le
  queueCounted := by
    obtain ⟨count, sameCount, census⟩ := consistent.queueCounted
    exact ⟨count, sameCount, census.stay (by rw [waiting]; rfl)⟩
  lineBounded bounded := by
    obtain ⟨count, within, census⟩ := consistent.lineBounded bounded
    exact ⟨count, within, census.stay (by rw [waiting]; rfl)⟩
  waiters_nodup := consistent.waiters_nodup.erase call
  mem_waiters other := by
    simp only [move_waiters, consistent.waiters_nodup.mem_erase_iff,
      consistent.mem_waiters, move_stage]
    by_cases same : other = call
    · simp [same]
    · simp [same]
  full_of_waiters some := by
    apply consistent.full_of_waiters
    intro none
    apply some
    simp [none]

/-- A call returns its slot to a channel without senders. -/
theorem give
    (consistent : gate.Consistent limits)
    {call : Nat}
    {answer : Except Error Paste}
    (writing : gate.stage call = .writing)
    (alone : gate.waiters = []) :
    { gate.move call (.returned answer) with
      slots := gate.slots - 1 }.Consistent limits where
  slotsHeld := by
    have holds : (gate.stage call).holdsSlot = true := by
      rw [writing]
      rfl
    have census := consistent.slotsHeld
    obtain ⟨rest, more⟩ := Nat.exists_eq_add_of_lt (census.pos_of_mem holds)
    rw [Nat.zero_add] at more
    rw [more] at census
    rw [more, Nat.add_sub_cancel]
    exact census.leave holds rfl
  slots_le := (Nat.sub_le _ _).trans consistent.slots_le
  queueCounted := by
    obtain ⟨count, sameCount, census⟩ := consistent.queueCounted
    exact ⟨count, sameCount, census.stay (by rw [writing]; rfl)⟩
  lineBounded bounded := by
    obtain ⟨count, within, census⟩ := consistent.lineBounded bounded
    exact ⟨count, within, census.stay (by rw [writing]; rfl)⟩
  waiters_nodup := consistent.waiters_nodup
  mem_waiters := consistent.mem_waiters_move (by rw [writing]; simp) (by simp)
  full_of_waiters some := absurd alone some

/-- A call returns its slot, and the first of the line has it. -/
theorem handOver
    (consistent : gate.Consistent limits)
    {call first : Nat}
    {rest : List Nat}
    {answer : Except Error Paste}
    (writing : gate.stage call = .writing)
    (line : gate.waiters = first :: rest) :
    ({ gate.move call (.returned answer) with waiters := rest }.move first
      .admitted).Consistent limits := by
  have holds : (gate.stage call).holdsSlot = true := by
    rw [writing]
    rfl
  obtain ⟨waiting, isOther⟩ := consistent.first_waiting writing line
  have stillWaiting :
      Function.update gate.stage call (.returned answer) first = .waiting := by
    rw [Function.update_of_ne isOther, waiting]
  have distinct := consistent.waiters_nodup
  rw [line] at distinct
  refine
    { slotsHeld := ?_
      slots_le := consistent.slots_le
      queueCounted := ?_
      lineBounded := ?_
      waiters_nodup := distinct.of_cons
      mem_waiters := ?_
      full_of_waiters := ?_ }
  · obtain ⟨others, more⟩ :=
      Nat.exists_eq_add_of_lt (consistent.slotsHeld.pos_of_mem holds)
    rw [Nat.zero_add] at more
    have census := consistent.slotsHeld
    rw [more] at census
    have given : Census (Function.update gate.stage call (.returned answer))
        Stage.holdsSlot others := census.leave holds rfl
    have handed : Census
        (Function.update (Function.update gate.stage call (.returned answer))
          first .admitted) Stage.holdsSlot (others + 1) :=
      given.enter (by rw [stillWaiting]; rfl) rfl
    rw [← more] at handed
    exact handed
  · obtain ⟨count, sameCount, census⟩ := consistent.queueCounted
    exact ⟨count, sameCount,
      (census.stay (by rw [writing]; rfl)).stay (by rw [stillWaiting]; rfl)⟩
  · intro bounded
    obtain ⟨count, within, census⟩ := consistent.lineBounded bounded
    exact ⟨count, within,
      (census.stay (by rw [writing]; rfl)).stay (by rw [stillWaiting]; rfl)⟩
  · intro other
    have inLine : other ∈ gate.waiters ↔
        (gate.move call (.returned answer)).stage other = .waiting :=
      consistent.mem_waiters_move (by rw [writing]; simp) (by simp) other
    rw [line, List.mem_cons] at inLine
    simp only [move_waiters, move_stage] at inLine ⊢
    by_cases same : other = first
    · rw [same, Function.update_self]
      exact iff_of_false distinct.notMem (by simp)
    · rw [Function.update_of_ne same, ← inLine, or_iff_right same]
  · intro _
    apply consistent.full_of_waiters
    simp [line]

end Consistent

/-- Every step keeps the counters right. -/
theorem Consistent.step
    (gated : 0 < limits.writeConcurrency)
    {gate : Gate}
    (consistent : gate.Consistent limits)
    (event : GateEvent) :
    (gate.step limits event).Consistent limits := by
  have change := step_change gated gate event
  generalize gate.step limits event = next at change ⊢
  cases change with
  | nothing => exact consistent
  | rejects call error fresh =>
      apply consistent.move <;> simp [fresh, Stage.holdsSlot, Stage.inQueue,
        Stage.inLine]
  | sheds call fresh bounded beyond =>
      exact consistent.enterQueue fresh rfl rfl (by simp) nofun
  | counts call fresh within =>
      exact consistent.enterQueue fresh rfl rfl (by simp) fun _ => within
  | sends call choice counted free => exact consistent.send counted free
  | givesUp call choice counted =>
      apply consistent.move <;> simp [counted, Stage.holdsSlot, Stage.inQueue,
        Stage.inLine]
  | blocks call choice counted full => exact consistent.block counted full
  | marks call => exact consistent.mark _
  | wakes call waiting =>
      exact (consistent.mark (Function.update gate.done call true)).unblock waiting
  | turnsAway call refusal refused =>
      apply consistent.leaveQueue <;> simp [refused, Stage.holdsSlot,
        Stage.inQueue]
  | admits call admitted =>
      apply consistent.leaveQueue <;> simp [admitted, Stage.holdsSlot,
        Stage.inQueue]
  | returns call answer writing alone => exact consistent.give writing alone
  | handsOver call answer writing first rest line =>
      exact consistent.handOver writing line

/-- The counters are right in every state of a gate with slots. -/
theorem run_consistent
    (gated : 0 < limits.writeConcurrency)
    (events : List GateEvent) :
    (run limits start events).Consistent limits :=
  Runs.invariant_run_of_forall (Consistent limits)
    (fun _ event consistent => consistent.step gated event) start_consistent

/-! ## Slots taken and given back -/

/-- The sends of a call on `writeSlots` that a step completes. -/
def sendsOf (limits : Limits) (call : Nat) (gate : Gate) : GateEvent → Nat
  | .select selecting sends =>
      match gate.stage selecting with
      | .counted =>
          if selecting = call ∧ gate.slots < limits.writeConcurrency ∧
              (sends ∨ gate.done call = false) then 1
          else 0
      | _ => 0
  | .finish finishing _ =>
      match gate.stage finishing with
      | .writing => if gate.waiters.head? = some call then 1 else 0
      | _ => 0
  | _ => 0

/-- The receives of a call from `writeSlots` that a step completes. -/
def receivesOf (call : Nat) (gate : Gate) : GateEvent → Nat
  | .finish finishing _ =>
      match gate.stage finishing with
      | .writing => if finishing = call then 1 else 0
      | _ => 0
  | _ => 0

/-- A call that moves between stages of the same measure keeps the measure of
every call. -/
theorem measure_move
    {Measure : Type}
    (measure : Stage → Measure)
    {gate : Gate}
    {moving : Nat}
    {source target : Stage}
    (from_source : gate.stage moving = source)
    (same : measure target = measure source)
    (call : Nat) :
    measure ((gate.move moving target).stage call) = measure (gate.stage call) := by
  rw [move_stage]
  by_cases isMoving : call = moving
  · rw [isMoving, Function.update_self, from_source, same]
  · rw [Function.update_of_ne isMoving]

/-- A step that completes a send of a call moves it to a stage that says so, and
no other step does. -/
theorem slotsTaken_step
    (gated : 0 < limits.writeConcurrency)
    {gate : Gate}
    (consistent : gate.Consistent limits)
    (event : GateEvent)
    (call : Nat) :
    ((gate.step limits event).stage call).slotsTaken =
      (gate.stage call).slotsTaken + sendsOf limits call gate event := by
  have change := step_change gated gate event
  generalize gate.step limits event = next at change ⊢
  cases change with
  | nothing event idle =>
      cases event <;> simp [sendsOf] <;> split <;>
        first | rfl | exact absurd ‹_› idle
  | rejects other error fresh =>
      apply measure_move Stage.slotsTaken fresh
      rfl
  | sheds other fresh bounded beyond =>
      apply measure_move Stage.slotsTaken fresh
      rfl
  | counts other fresh within =>
      apply measure_move Stage.slotsTaken fresh
      rfl
  | sends other choice counted free takesIt =>
      simp only [move_stage, sendsOf, counted, free, true_and]
      by_cases same : call = other
      · subst same
        simp [counted, takesIt, Stage.slotsTaken]
      · simp [same, Ne.symm same]
  | givesUp other choice counted leavesIt =>
      have noSend : sendsOf limits call gate (.select other choice) = 0 := by
        simp only [sendsOf, counted]
        rw [if_neg]
        rintro ⟨rfl, takes⟩
        exact leavesIt takes
      rw [noSend]
      apply measure_move Stage.slotsTaken counted
      rfl
  | blocks other choice counted full =>
      have noSend : sendsOf limits call gate (.select other choice) = 0 := by
        simp [sendsOf, counted, not_lt.mpr full]
      rw [noSend]
      apply measure_move Stage.slotsTaken counted
      rfl
  | marks other => rfl
  | wakes other waiting =>
      apply measure_move Stage.slotsTaken waiting
      rfl
  | turnsAway other refusal refused =>
      apply measure_move Stage.slotsTaken refused
      rfl
  | admits other admitted =>
      apply measure_move Stage.slotsTaken admitted
      rfl
  | returns other answer writing alone =>
      have noSend : sendsOf limits call gate (.finish other answer) = 0 := by
        simp [sendsOf, writing, alone]
      rw [noSend]
      apply measure_move Stage.slotsTaken writing
      rfl
  | handsOver other answer writing first rest line =>
      obtain ⟨waiting, -⟩ := consistent.first_waiting writing line
      have returned : ((gate.move other (.returned answer)).stage call).slotsTaken =
          (gate.stage call).slotsTaken := by
        apply measure_move Stage.slotsTaken writing
        rfl
      simp only [sendsOf, writing, line, List.head?_cons, Option.some.injEq]
      rw [move_stage]
      by_cases same : call = first
      · simp [same, waiting, Stage.slotsTaken]
      · rw [Function.update_of_ne same, if_neg (Ne.symm same)]
        exact returned

/-- A step that completes a receive of a call is the one it returns by. -/
theorem slotsGiven_step
    (gated : 0 < limits.writeConcurrency)
    {gate : Gate}
    (consistent : gate.Consistent limits)
    (event : GateEvent)
    (call : Nat) :
    ((gate.step limits event).stage call).slotsGiven =
      (gate.stage call).slotsGiven + receivesOf call gate event := by
  have change := step_change gated gate event
  generalize gate.step limits event = next at change ⊢
  cases change with
  | nothing event idle =>
      cases event <;> simp [receivesOf]
      split
      · exact absurd ‹_› idle
      · rfl
  | rejects other error fresh =>
      apply measure_move Stage.slotsGiven fresh
      rfl
  | sheds other fresh bounded beyond =>
      apply measure_move Stage.slotsGiven fresh
      rfl
  | counts other fresh within =>
      apply measure_move Stage.slotsGiven fresh
      rfl
  | sends other choice counted free takesIt =>
      apply measure_move Stage.slotsGiven counted
      rfl
  | givesUp other choice counted leavesIt =>
      apply measure_move Stage.slotsGiven counted
      rfl
  | blocks other choice counted full =>
      apply measure_move Stage.slotsGiven counted
      rfl
  | marks other => rfl
  | wakes other waiting =>
      apply measure_move Stage.slotsGiven waiting
      rfl
  | turnsAway other refusal refused =>
      apply measure_move Stage.slotsGiven refused
      rfl
  | admits other admitted =>
      apply measure_move Stage.slotsGiven admitted
      rfl
  | returns other answer writing alone =>
      simp only [move_stage, receivesOf, writing]
      by_cases same : call = other
      · simp [same, writing, Stage.slotsGiven]
      · simp [same, Ne.symm same]
  | handsOver other answer writing first rest line =>
      have handed : (((gate.move other (.returned answer)).move first
          .admitted).stage call).slotsGiven =
            ((gate.move other (.returned answer)).stage call).slotsGiven := by
        apply measure_move Stage.slotsGiven
          (consistent.first_still_waiting writing line _)
        rfl
      refine handed.trans ?_
      simp only [move_stage, receivesOf, writing]
      by_cases same : call = other
      · simp [same, writing, Stage.slotsGiven]
      · simp [same, Ne.symm same]

/-- The sends of a call along a run. -/
def sent (limits : Limits) (call : Nat) (events : List GateEvent) : Nat :=
  Runs.total (step limits) (sendsOf limits call) start events

/-- The receives of a call along a run. -/
def received (limits : Limits) (call : Nat) (events : List GateEvent) : Nat :=
  Runs.total (step limits) (receivesOf call) start events

theorem slotsTaken_run
    (gated : 0 < limits.writeConcurrency)
    (events : List GateEvent)
    (call : Nat) :
    ((run limits start events).stage call).slotsTaken =
      sent limits call events := by
  have taken : ((run limits start events).stage call).slotsTaken =
      0 + sent limits call events :=
    Runs.measure_run (fun gate : Gate => (gate.stage call).slotsTaken)
      (Consistent limits) (fun _ event consistent => consistent.step gated event)
      (fun _ event consistent => slotsTaken_step gated consistent event call)
      start_consistent
  rw [taken, Nat.zero_add]

theorem slotsGiven_run
    (gated : 0 < limits.writeConcurrency)
    (events : List GateEvent)
    (call : Nat) :
    ((run limits start events).stage call).slotsGiven =
      received limits call events := by
  have given : ((run limits start events).stage call).slotsGiven =
      0 + received limits call events :=
    Runs.measure_run (fun gate : Gate => (gate.stage call).slotsGiven)
      (Consistent limits) (fun _ event consistent => consistent.step gated event)
      (fun _ event consistent => slotsGiven_step gated consistent event call)
      start_consistent
  rw [given, Nat.zero_add]

/-- Without a call in flight every counter is back at zero. -/
theorem Consistent.idle
    {gate : Gate}
    (consistent : gate.Consistent limits)
    (quiet : ∀ call, (gate.stage call).inFlight = false) :
    gate.slots = 0 ∧ gate.queued = 0 := by
  constructor
  · apply consistent.slotsHeld.eq_zero
    intro call
    have notInFlight := quiet call
    revert notInFlight
    cases gate.stage call <;> simp [Stage.inFlight, Stage.holdsSlot]
  · obtain ⟨count, sameCount, census⟩ := consistent.queueCounted
    rw [sameCount, census.eq_zero, Nat.cast_zero]
    intro call
    have notInFlight := quiet call
    revert notInFlight
    cases gate.stage call <;> simp [Stage.inFlight, Stage.inQueue]

/-- The callers blocked on the channel are within the bound on the queue. -/
theorem Consistent.waiting_le
    {gate : Gate}
    (consistent : gate.Consistent limits)
    (bounded : 0 < limits.writeQueue)
    {calls : Finset Nat}
    (waiting : ∀ call ∈ calls, gate.stage call = .waiting) :
    calls.card ≤ limits.writeQueue := by
  obtain ⟨count, within, census⟩ := consistent.lineBounded bounded
  refine le_trans (census.card_le fun call present => ?_) within
  rw [waiting call present]
  rfl

/-- **Write admission.**  In every state that the steps of any number of calls
reach, at most `WriteConcurrency` calls are between admission and return and at
most `WriteQueue` are blocked.  A call that has returned after admission has
taken one slot and given one back, a call that is between the two has taken
one, and a call that was turned away has done neither.  When no call is in
flight all slots are free and the count is zero. -/
theorem admission_within_bounds
    (limits : Limits)
    (gated : 0 < limits.writeConcurrency)
    (bounded : 0 < limits.writeQueue)
    (events : List GateEvent) :
    let gate := run limits start events
    (∀ calls : Finset Nat,
      (∀ call ∈ calls, (gate.stage call).holdsSlot = true) →
        calls.card ≤ limits.writeConcurrency) ∧
    (∀ calls : Finset Nat,
      (∀ call ∈ calls, gate.stage call = .waiting) →
        calls.card ≤ limits.writeQueue) ∧
    (∀ call answer, gate.stage call = .returned answer →
      sent limits call events = 1 ∧ received limits call events = 1) ∧
    (∀ call, (gate.stage call).holdsSlot = true →
      sent limits call events = 1 ∧ received limits call events = 0) ∧
    (∀ call refusal,
      gate.stage call = .refused refusal ∨ gate.stage call = .turnedAway refusal →
        sent limits call events = 0 ∧ received limits call events = 0) ∧
    ((∀ call, (gate.stage call).inFlight = false) →
      gate.slots = 0 ∧ gate.queued = 0) := by
  intro gate
  have consistent : gate.Consistent limits := run_consistent gated events
  have taken : ∀ call, (gate.stage call).slotsTaken = sent limits call events :=
    slotsTaken_run gated events
  have given :
      ∀ call, (gate.stage call).slotsGiven = received limits call events :=
    slotsGiven_run gated events
  refine ⟨?_, ?_, ?_, ?_, ?_, consistent.idle⟩
  · intro calls holding
    exact (consistent.slotsHeld.card_le holding).trans consistent.slots_le
  · intro calls waiting
    exact consistent.waiting_le bounded waiting
  · intro call answer returned
    rw [← taken, ← given, returned]
    exact ⟨rfl, rfl⟩
  · intro call holding
    rw [← taken, ← given]
    revert holding
    cases gate.stage call <;>
      simp [Stage.holdsSlot, Stage.slotsTaken, Stage.slotsGiven]
  · intro call refusal turned
    rw [← taken, ← given]
    rcases turned with refused | away
    · rw [refused]
      exact ⟨rfl, rfl⟩
    · rw [away]
      exact ⟨rfl, rfl⟩

/-- Three calls for one slot and one place in the line: the first is admitted,
the second waits, the third is refused, and the first fails and passes its slot
to the second. -/
def threeWrites : List GateEvent :=
  [.arrive 0, .select 0 true, .leave 0, .arrive 1, .select 1 true, .arrive 2,
    .leave 2, .finish 0 (.error .cancelled), .leave 1]

theorem admission_within_bounds_three :
    0 < (1 : Nat) ∧
    ∀ calls : Finset Nat,
      (∀ call ∈ calls,
        ((run ⟨1, 1⟩ start threeWrites).stage call).holdsSlot = true) →
        calls.card ≤ 1 :=
  ⟨by decide,
    (admission_within_bounds ⟨1, 1⟩ (by decide) (by decide) threeWrites).1⟩

end Gate

end Store
end Haste
