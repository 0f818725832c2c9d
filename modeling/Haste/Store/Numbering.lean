import Haste.Store.Allocation

/-!
# Which numbers a run hands out

The counter of a file only ever moves past numbers that `Create` has handed out
or whose code is a reserved word, since a failed call gives its numbers back.
So the pastes of a run have exactly the numbers with a free code, in order,
whatever else happens between two of them; and as codes are numbered by length,
a paste gets the shortest code that no earlier one had.
-/

namespace Haste
namespace Store

open Go
open Foundation

/-! ## The numbers with a free code -/

/-- Whether the loop of `Create` goes past a number. -/
def skips (ids : Id.Generator) (seq : Nat) : Bool :=
  match ids.code (UInt64.ofNat seq) with
  | .ok code => ids.isReserved code
  | .error _ => false

/-- The numbers after `low` and up to `high` that the loop does not go past. -/
def freeNumbers (ids : Id.Generator) (low high : Nat) : List Nat :=
  (List.range' (low + 1) (high - low)).filter fun seq => !skips ids seq

variable {ids : Id.Generator}

theorem skips_of_code
    {seq : Nat}
    {code : Bytes}
    (issued : ids.code (UInt64.ofNat seq) = .ok code) :
    skips ids seq = ids.isReserved code := by
  unfold skips
  rw [issued]

theorem mem_freeNumbers
    {low high seq : Nat} :
    seq ∈ freeNumbers ids low high ↔
      low < seq ∧ seq ≤ high ∧ skips ids seq = false := by
  have within : low + 1 ≤ seq ∧ seq < low + 1 + (high - low) ↔
      low < seq ∧ seq ≤ high := by omega
  unfold freeNumbers
  rw [List.mem_filter, List.mem_range'_1, Bool.not_eq_true', within, and_assoc]

theorem freeNumbers_pairwise (low high : Nat) :
    (freeNumbers ids low high).Pairwise (· < ·) :=
  List.Pairwise.filter _ List.pairwise_lt_range'

@[simp] theorem freeNumbers_self (counter : Nat) :
    freeNumbers ids counter counter = [] := by
  simp [freeNumbers]

theorem freeNumbers_append
    {low middle high : Nat}
    (lower : low ≤ middle)
    (upper : middle ≤ high) :
    freeNumbers ids low middle ++ freeNumbers ids middle high =
      freeNumbers ids low high := by
  have start : middle + 1 = low + 1 + 1 * (middle - low) := by omega
  have count : high - low = (middle - low) + (high - middle) := by omega
  unfold freeNumbers
  rw [← List.filter_append, start, List.range'_append, count]

/-- One allocation moves the counter past reserved codes and to one free one. -/
theorem Allocated.freeNumbers_eq
    {counter seq : Nat}
    {code : Bytes}
    (allocated : Allocated ids counter seq code) :
    freeNumbers ids counter seq = [seq] := by
  have above := allocated.above
  have last : seq - 1 + 1 = seq := by omega
  rw [← freeNumbers_append (show counter ≤ seq - 1 by omega) (Nat.sub_le seq 1)]
  have before : freeNumbers ids counter (seq - 1) = [] := by
    apply List.eq_nil_iff_forall_not_mem.mpr
    intro earlier listed
    obtain ⟨after, upTo, free⟩ := mem_freeNumbers.mp listed
    obtain ⟨word, issued, reserved⟩ := allocated.least earlier after (by omega)
    rw [skips_of_code issued, reserved] at free
    cases free
  have here : skips ids seq = false :=
    (skips_of_code allocated.issued).trans allocated.free
  have one : seq - (seq - 1) = 1 := by omega
  rw [before, List.nil_append, freeNumbers, last, one]
  simp [here]

/-! ## The pastes of a run -/

/-- The number of a paste is below 2^63 and its code is that of the number. -/
structure Paste.NumberedBy (ids : Id.Generator) (paste : Paste) : Prop where
  fits : paste.seq < 2 ^ 63
  issued : ids.code (UInt64.ofNat paste.seq) = .ok paste.code

/-- The paste an answer reports. -/
def Answer.createdPaste : Answer → Option Paste
  | .created paste => some paste
  | _ => none

namespace System

/-- The pastes created along a run, in order. -/
def pastesCreated (system : System) (ops : List Op) : List Paste :=
  (Runs.answers perform system ops).filterMap Answer.createdPaste

theorem pastesCreated_cons
    (system : System)
    (op : Op)
    (rest : List Op) :
    system.pastesCreated (op :: rest) =
      (system.answer op).createdPaste.toList ++
        (system.step op).pastesCreated rest := by
  simp only [pastesCreated, Runs.answers, List.filterMap_cons, answer, step]
  cases (system.perform op).1.createdPaste <;> rfl

/-- A step hands out the numbers with a free code that the counter moves past,
each with its code. -/
theorem created_step
    {system : System}
    (sound : system.Sound)
    (current : ∀ options, system.settings = some options → options.ids = ids)
    (op : Op) :
    (system.answer op).createdPaste.toList.map Paste.seq =
        freeNumbers ids system.content.pasteSeq
          (system.step op).content.pasteSeq ∧
      ∀ paste ∈ (system.answer op).createdPaste.toList,
        paste.NumberedBy ids := by
  cases system with
  | closed file last =>
      have counter := (step_closed_sameContent file last op).2
      have silent : ((System.closed file last).answer op).createdPaste = none := by
        cases answered : (System.closed file last).answer op with
        | created paste =>
            exact absurd answered (answer_closed_ne_created file last op paste)
        | _ => rfl
      rw [counter, silent]
      exact ⟨(freeNumbers_self _).symm, by simp⟩
  | opened store =>
      have ended := outcome sound op
      generalize (System.opened store).answer op = answer at ended ⊢
      generalize (System.opened store).step op = next at ended ⊢
      cases ended with
      | created env request paste db created =>
          have same := current _ rfl
          have allocated := created.allocated
          rw [same] at allocated
          have counter : db.pasteSeq = paste.seq := created.stores.pasteSeq
          refine ⟨?_, ?_⟩
          · change [paste.seq] = freeNumbers ids store.db.pasteSeq db.pasteSeq
            rw [counter, allocated.freeNumbers_eq]
          · intro other listed
            obtain rfl : other = paste := by
              simpa [Answer.createdPaste] using listed
            exact ⟨allocated.fits, allocated.issued⟩
      | _ => exact ⟨(freeNumbers_self _).symm, by simp [Answer.createdPaste]⟩

/-- A run hands out exactly the numbers with a free code that the counter moves
past, each with its code. -/
theorem created_run
    {system : System}
    (sound : system.Sound)
    (current : ∀ options, system.settings = some options → options.ids = ids)
    {ops : List Op}
    (opens : ∀ options stopped, .openFile options stopped ∈ ops →
      options.ids = ids) :
    (system.pastesCreated ops).map Paste.seq =
        freeNumbers ids system.content.pasteSeq
          (system.run ops).content.pasteSeq ∧
      ∀ paste ∈ system.pastesCreated ops, paste.NumberedBy ids := by
  induction ops generalizing system with
  | nil => exact ⟨(freeNumbers_self _).symm, fun _ listed => by cases listed⟩
  | cons op rest inductionHypothesis =>
      obtain ⟨nextSound, change⟩ := step_spec sound op
      obtain ⟨numbers, numbered⟩ := created_step sound current op
      have later := invariant_run_of_change
        (fun content => (system.step op).content.pasteSeq ≤ content.pasteSeq)
        (fun _ _ _ change le => le.trans change.pasteSeq_le)
        nextSound le_rfl rest
      obtain ⟨restNumbers, restNumbered⟩ := inductionHypothesis nextSound
        (family_step sound current fun options stopped isOpen =>
          opens options stopped (isOpen ▸ List.mem_cons_self))
        fun options stopped listed =>
          opens options stopped (List.mem_cons_of_mem _ listed)
      rw [pastesCreated_cons]
      constructor
      · rw [List.map_append, numbers, restNumbers, run_cons,
          freeNumbers_append change.pasteSeq_le later]
      · intro paste listed
        rcases List.mem_append.mp listed with here | there
        · exact numbered paste here
        · exact restNumbered paste there

end System

/-- A number with a shorter code comes earlier. -/
theorem Paste.NumberedBy.lt_of_length_lt
    {paste : Paste}
    (numbered : paste.NumberedBy ids)
    {seq : UInt64}
    {code : Bytes}
    (issued : ids.code seq = .ok code)
    (shorter : code.length < paste.code.length) :
    seq.toNat < paste.seq := by
  by_contra notBefore
  have le : UInt64.ofNat paste.seq ≤ seq := by
    rw [UInt64.le_iff_toNat_le, toNat_ofNat_seq numbered.fits]
    exact not_lt.mp notBefore
  exact absurd (ids.code_length_mono le numbered.issued issued)
    (not_le.mpr shorter)

theorem Paste.NumberedBy.length_le
    {earlier later : Paste}
    (numbered : earlier.NumberedBy ids)
    (numbered' : later.NumberedBy ids)
    (lt : earlier.seq < later.seq) :
    earlier.code.length ≤ later.code.length := by
  refine ids.code_length_mono ?_ numbered.issued numbered'.issued
  rw [UInt64.le_iff_toNat_le, toNat_ofNat_seq numbered.fits,
    toNat_ofNat_seq numbered'.fits]
  exact lt.le

/-- Along every run that opens a file with one key, minimum length and reserved
list, whatever fails, is evicted or is reopened on the way: the pastes created
have exactly the numbers with a free code that the counter moves past, in order,
each with its code; so a later code is never shorter, and on a file with no
numbers taken a paste comes only after every free code shorter than its own. -/
theorem numbers_handed_out
    {file : File}
    {ops : List Op}
    (opens : ∀ options stopped, .openFile options stopped ∈ ops →
      options.ids = ids) :
    let start := System.closed file none
    let pastes := start.pastesCreated ops
    pastes.map Paste.seq =
        freeNumbers ids file.content.pasteSeq (start.run ops).content.pasteSeq ∧
      (∀ paste ∈ pastes,
        ids.code (UInt64.ofNat paste.seq) = .ok paste.code) ∧
      pastes.Pairwise (fun earlier later =>
        earlier.code.length ≤ later.code.length) ∧
      (file.content.pasteSeq = 0 →
        ∀ before paste after, pastes = before ++ paste :: after →
          ∀ code, Id.valid code = true → ids.minLen ≤ code.length →
            code.length < paste.code.length → ids.isReserved code = false →
              ∃ earlier ∈ before, earlier.code = code) := by
  intro start pastes
  obtain ⟨numbers, numbered⟩ := System.created_run
    (System.sound_closed file none) (fun _ noOptions => by cases noOptions) opens
  have ordered : pastes.Pairwise fun earlier later =>
      earlier.seq < later.seq := by
    apply List.pairwise_map.mp
    rw [numbers]
    exact freeNumbers_pairwise _ _
  refine ⟨numbers, fun paste listed => (numbered paste listed).issued, ?_, ?_⟩
  · refine ordered.imp_of_mem ?_
    intro earlier later listed listed' lt
    exact (numbered earlier listed).length_le (numbered later listed') lt
  · intro unused before paste after split code valid long shorter free
    have listed : paste ∈ pastes := by
      rw [split]
      exact List.mem_append_right _ List.mem_cons_self
    obtain ⟨_, short, base62⟩ := (Id.valid_iff code).mp valid
    obtain ⟨seq, issued⟩ := ids.exists_seq_of_base62 long short base62
    have below := (numbered paste listed).lt_of_length_lt issued shorter
    have word : UInt64.ofNat seq.toNat = seq := UInt64.ofNat_toNat
    have positive : 0 < seq.toNat := by
      have nonzero := ((ids.exists_code_iff seq).mp ⟨code, issued⟩).1
      by_contra zero
      exact nonzero (UInt64.toNat_inj.mp (Nat.eq_zero_of_not_pos zero))
    have upTo : paste.seq ≤ (start.run ops).content.pasteSeq := by
      have member := List.mem_map_of_mem (f := Paste.seq) listed
      rw [numbers] at member
      exact (mem_freeNumbers.mp member).2.1
    -- The number of the shorter code is handed out, and before that of `paste`.
    have taken : seq.toNat ∈ pastes.map Paste.seq := by
      rw [numbers]
      refine mem_freeNumbers.mpr ⟨?_, below.le.trans upTo, ?_⟩
      · change file.content.pasteSeq < _
        rwa [unused]
      · rw [skips_of_code (word.symm ▸ issued), free]
    obtain ⟨earlier, earlierListed, same⟩ := List.mem_map.mp taken
    refine ⟨earlier, ?_, ?_⟩
    · rw [split, List.mem_append, List.mem_cons] at earlierListed
      rw [split, List.pairwise_append, List.pairwise_cons] at ordered
      rcases earlierListed with here | rfl | later
      · exact here
      · exact absurd below (by omega)
      · exact absurd (ordered.2.1.1 earlier later) (by omega)
    · have same' := (numbered earlier earlierListed).issued
      rw [same, word, issued] at same'
      exact (Except.ok.inj same').symm

/-- Two pastes with a refused one and a reopening between them. -/
theorem numbers_handed_out_small :
    let ops : List Op :=
      [.openFile Options.small none, .create (.calm 0) Request.small,
        .create (.calm 1) ⟨[], [], [], 0⟩, .shut,
        .openFile Options.small none, .create (.calm 2) Request.small]
    let start := System.closed .fresh none
    (start.pastesCreated ops).map Paste.seq = [1, 2] ∧
    (start.pastesCreated ops).map Paste.seq =
      freeNumbers Options.small.ids 0 (start.run ops).content.pasteSeq ∧
    (start.pastesCreated ops).Pairwise fun earlier later =>
      earlier.code.length ≤ later.code.length := by
  intro ops start
  have spec := @numbers_handed_out Options.small.ids .fresh ops
    (show ∀ options stopped, .openFile options stopped ∈ ops →
      options.ids = Options.small.ids by
        intro options stopped listed
        simp only [ops, List.mem_cons, Op.openFile.injEq, reduceCtorEq,
          List.not_mem_nil, or_false, false_or] at listed
        rcases listed with ⟨rfl, _⟩ | ⟨rfl, _⟩ <;> rfl)
  exact ⟨by decide +kernel, spec.1, spec.2.2.1⟩

end Store
end Haste
