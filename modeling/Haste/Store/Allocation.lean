import Haste.Store.Histories

/-!
# Codes are never issued twice

The sequence counter only grows, a code has one sequence number under a key and
a minimum length, and raising the minimum length can only lower the number of a
code.  So as long as reopening keeps the key and does not lower the minimum
length, the code of a later paste differs from every earlier one, whatever has
become of the earlier paste.
-/

namespace Haste
namespace Store

open Go
open Foundation
open Foundation.Transaction

/-- The same key and no lower minimum code length. -/
def Options.KeepsCodes (last options : Options) : Prop :=
  options.ids.mac = last.ids.mac ∧ last.ids.minLen ≤ options.ids.minLen

theorem Options.KeepsCodes.trans
    (first second third : Options)
    (before : first.KeepsCodes second)
    (after : second.KeepsCodes third) :
    first.KeepsCodes third :=
  ⟨after.1.trans before.1, before.2.trans after.2⟩

/-- The counter never reaches the end of its column, since every number taken
has a code. -/
theorem Change.counted
    {settings : Option Options}
    {db next : Database}
    (change : Change settings db next)
    (counted : db.pasteSeq + 1 < 2 ^ 63) :
    next.pasteSeq + 1 < 2 ^ 63 := by
  cases change with
  | unchanged same => rwa [same]
  | reopened same => rwa [same.2]
  | stored options current env request paste created =>
      have allocated := created.allocated
      have within :=
        ((options.ids.exists_code_iff _).mp ⟨_, allocated.issued⟩).2
      have few := Id.codeCount_lt options.ids.minLen_pos options.ids.minLen_le
      have number := toNat_ofNat_seq allocated.fits
      have sameSeq : next.pasteSeq = paste.seq := created.stores.pasteSeq
      omega
  | touched entries same => rwa [same]
  | swept options current now same => rwa [same]

/-- A later number under the same key and no lower minimum length has another
code. -/
theorem Allocated.code_ne_of_issued
    {first second : Options}
    (keeps : first.KeepsCodes second)
    {counter seq seq' : Nat}
    {code code' : Bytes}
    (earlier : Allocated first.ids counter seq code)
    (fits : seq' < 2 ^ 63)
    (lt : seq < seq')
    (issued : second.ids.code (UInt64.ofNat seq') = .ok code') :
    code ≠ code' := by
  rintro rfl
  have bound := first.ids.code_seq_le_of_minLen_le keeps.1.symm keeps.2
    earlier.issued issued
  rw [UInt64.le_iff_toNat_le, toNat_ofNat_seq earlier.fits,
    toNat_ofNat_seq fits] at bound
  exact absurd lt (not_lt.mpr bound)

theorem Allocated.code_ne
    {first second : Options}
    (keeps : first.KeepsCodes second)
    {counter counter' seq seq' : Nat}
    {code code' : Bytes}
    (earlier : Allocated first.ids counter seq code)
    (later : Allocated second.ids counter' seq' code')
    (le : seq ≤ counter') :
    code ≠ code' :=
  earlier.code_ne_of_issued keeps later.fits (le.trans_lt later.above)
    later.issued

/-- Two pastes created one after the other have different codes. -/
theorem System.created_code_ne
    {system : System}
    (sound : system.Sound)
    {env env' : Env}
    {request request' : Request}
    {paste paste' : Paste}
    {between : List Op}
    (created : system.answer (.create env request) = .created paste)
    (reopens : Runs.Each step (ReopensWith Options.KeepsCodes)
      (system.step (.create env request)) between)
    (createdLater : (system.run (.create env request :: between)).answer
      (.create env' request') = .created paste') :
    paste.code ≠ paste'.code := by
  obtain ⟨store, db, rfl, stepped, isCreated⟩ := created_of_answer sound created
  have nextSound := (step_spec sound (.create env request)).1
  rw [run_cons] at createdLater
  rw [stepped] at reopens nextSound createdLater
  have laterSound := sound_run nextSound between
  obtain ⟨later, _, reached, _, isCreatedLater⟩ :=
    created_of_answer laterSound createdLater
  obtain ⟨options, current, keeps⟩ := settings_run Options.KeepsCodes.trans
    nextSound ⟨store.options, rfl, rfl, le_rfl⟩ reopens
  have counter := invariant_run_of_change
    (fun content => paste.seq ≤ content.pasteSeq)
    (fun _ _ _ change le => le.trans change.pasteSeq_le) nextSound
    (show paste.seq ≤ db.pasteSeq from isCreated.stores.pasteSeq.ge) between
  rw [reached] at current counter
  obtain rfl : later.options = options := Option.some.inj current
  exact isCreated.allocated.code_ne keeps isCreatedLater.allocated counter

/-- A code outside the reserved list is no reserved word in any letter case. -/
theorem toLower_ne_of_free
    {mac : Bytes → Vector UInt8 32}
    {minLen : Int}
    {words : List Bytes}
    {code word : Bytes}
    (free : (Id.newGenerator mac minLen words).isReserved code = false)
    (listed : word ∈ words) :
    toLower code ≠ toLower word := by
  intro same
  have reserved : (Id.newGenerator mac minLen words).isReserved code = true :=
    List.contains_iff_mem.mpr
      (same ▸ List.mem_map_of_mem listed)
  rw [free] at reserved
  cases reserved

/-- Along every run whose reopens keep the key and never lower the minimum
length: two successful `Create`s never answer the same code; a code is valid,
no reserved word in any letter case, and that of the least free number above
the committed counter; and, over a file whose counter has not filled its signed
64-bit column, the loop that takes numbers ends with a code or with the code
space exhausted, unless a statement fails. -/
theorem codes_never_reused
    {file : File}
    {last : Option Options}
    {ops : List Op}
    (reopens : Runs.Each System.step
      (System.ReopensWith Options.KeepsCodes) (.closed file last) ops) :
    let start := System.closed file last
    (∀ before env request between env' request' after paste paste',
      ops = before ++ (.create env request :: between) ++
        .create env' request' :: after →
      (start.run before).answer (.create env request) = .created paste →
      (start.run (before ++ .create env request :: between)).answer
        (.create env' request') = .created paste' →
      paste.code ≠ paste'.code) ∧
    (∀ store env request paste,
      start.run ops = .opened store →
      (start.run ops).answer (.create env request) = .created paste →
      Id.valid paste.code = true ∧
      (∀ mac minLen words, store.options.ids =
        Id.newGenerator mac minLen words →
          ∀ word ∈ words, toLower paste.code ≠ toLower word) ∧
      Allocated store.options.ids store.db.pasteSeq paste.seq paste.code) ∧
    (file.content.pasteSeq + 1 < 2 ^ 63 →
      ∀ store env db, start.run ops = .opened store →
        db.pasteSeq = store.db.pasteSeq →
        Ends (allocate store.options.ids env sequenceLimit) db
          (fun _ _ => True)
          fun error => error.InterruptedBy env ∨ error = .id .exhausted) := by
  have startSound := System.sound_closed file last
  refine ⟨?_, ?_, ?_⟩
  · rintro before env request between env' request' after paste paste' rfl
      created createdLater
    have sound := System.sound_run startSound before
    have upToLater := (Runs.each_append.mp reopens).1
    have fromFirst := (Runs.each_append.mp upToLater).2
    rw [System.run_append] at createdLater
    exact System.created_code_ne sound created fromFirst.2 createdLater
  · intro store env request paste reached answered
    have sound := System.sound_run startSound ops
    obtain ⟨same, db, isSame, _, created⟩ :=
      System.created_of_answer sound answered
    obtain rfl : store = same := System.opened.inj (reached.symm.trans isSame)
    have allocated := created.allocated
    obtain ⟨long, short, base62⟩ :=
      store.options.ids.code_shape allocated.issued
    refine ⟨?_, ?_, allocated⟩
    · exact (Id.valid_iff _).mpr
        ⟨store.options.ids.minLen_pos.trans long, short, base62⟩
    · intro mac minLen words built word listed
      have free := allocated.free
      rw [built] at free
      exact toLower_ne_of_free free listed
  · intro counted store env db reached sameCounter
    have storeCounted := System.invariant_run_of_change
      (fun content => content.pasteSeq + 1 < 2 ^ 63)
      (fun _ _ _ change => change.counted) startSound counted ops
    rw [reached] at storeCounted
    have dbCounted : db.pasteSeq + 1 < 2 ^ 63 := by
      rw [sameCounter]
      exact storeCounted
    exact ends_allocate (Nat.le_add_left _ _) (by decide) (fun _ _ _ => trivial)
      (fun _ => Or.inl) (fun _ _ _ => Or.inr rfl)
      fun full => absurd full (not_le.mpr dbCounted)

/-- A paste, a reopening of the file and another paste. -/
theorem codes_never_reused_small :
    let ops : List Op :=
      [.openFile Options.small none, .create (.calm 0) ⟨ascii "a", [], [], 0⟩,
        .shut, .openFile Options.small none]
    ∃ paste paste',
      ((System.closed .fresh none).run (ops.take 1)).answer
        (.create (.calm 0) ⟨ascii "a", [], [], 0⟩) = .created paste ∧
      ((System.closed .fresh none).run ops).answer
        (.create (.calm 1) ⟨ascii "b", [], [], 0⟩) = .created paste' ∧
      paste.code ≠ paste'.code := by
  intro ops
  obtain ⟨paste, created⟩ := System.exists_created_of_commits
    (show (((System.closed .fresh none).run (ops.take 1)).answer
      (.create (.calm 0) ⟨ascii "a", [], [], 0⟩)).commits = true by
        decide +kernel)
  obtain ⟨paste', created'⟩ := System.exists_created_of_commits
    (show (((System.closed .fresh none).run ops).answer
      (.create (.calm 1) ⟨ascii "b", [], [], 0⟩)).commits = true by
        decide +kernel)
  have keeps : ∀ first second : Options,
      first = Options.small → second = Options.small →
        first.KeepsCodes second := by
    rintro _ _ rfl rfl
    exact ⟨rfl, le_rfl⟩
  have reopens : Runs.Each System.step
      (System.ReopensWith Options.KeepsCodes) (System.closed .fresh none)
      (ops ++ [.create (.calm 1) ⟨ascii "b", [], [], 0⟩]) :=
    System.reopensWith_of_forall keeps
      (System.sound_closed .fresh none)
      (fun _ noOptions => by cases noOptions) (by simp [ops])
  exact ⟨paste, paste', created, created',
    (codes_never_reused reopens).1 (ops.take 1) _ _ (ops.drop 2) _ _ [] _ _ rfl
      created created'⟩

end Store
end Haste
