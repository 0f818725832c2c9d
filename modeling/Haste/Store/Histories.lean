import Haste.Store.Steps

/-!
# Histories

What the steps of a run keep, the run keeps: the exact counter, the options of
a store that stays open, and any invariant that the changes under the options in
force preserve.
-/

namespace Haste
namespace Store

open Go
open Foundation

namespace System

/-- An open store that is not shut stays open with its options. -/
theorem opened_step
    {store : OpenStore}
    (accounted : store.db.Accounted)
    {op : Op}
    (running : op ≠ .shut) :
    ∃ next, (System.opened store).step op = .opened next ∧
      next.options = store.options ∧ next.db.Accounted := by
  have sound := (step_opened_spec accounted op).1
  have ended := outcome accounted op
  generalize (System.opened store).answer op = answer at ended
  generalize (System.opened store).step op = next at ended sound ⊢
  cases ended with
  | shut => exact absurd rfl running
  | _ => exact ⟨_, rfl, rfl, sound⟩

theorem opened_run
    {store : OpenStore}
    (accounted : store.db.Accounted)
    {ops : List Op}
    (running : ∀ op ∈ ops, op ≠ .shut) :
    ∃ next, (System.opened store).run ops = .opened next ∧
      next.options = store.options ∧ next.db.Accounted := by
  induction ops generalizing store with
  | nil => exact ⟨store, rfl, rfl, accounted⟩
  | cons op rest inductionHypothesis =>
      obtain ⟨first, restRunning⟩ := List.forall_mem_cons.mp running
      obtain ⟨next, stepped, sameOptions, nextAccounted⟩ :=
        opened_step accounted first
      obtain ⟨last, ran, lastOptions, lastAccounted⟩ :=
        inductionHypothesis nextAccounted restRunning
      refine ⟨last, ?_, lastOptions.trans sameOptions, lastAccounted⟩
      rw [run_cons, stepped]
      exact ran

/-- What a successful `Open` leaves. -/
theorem opened_of_answer
    {file : File}
    {last : Option Options}
    {options : Options}
    {stopped : Option Nat}
    (answered : (System.closed file last).answer (.openFile options stopped) =
      .opened) :
    ∃ store, (System.closed file last).step (.openFile options stopped) =
        .opened store ∧
      store.options = options ∧ store.db.Accounted ∧
      file.content.SameContent store.db ∧
      store.access = ∅ ∧ store.sweeper = .idle := by
  obtain ⟨same, accounted⟩ := openFile_spec stopped file
  simp only [answer, step, perform, openStore] at answered ⊢
  cases ended : openFile stopped file with
  | mk done next =>
      rw [ended] at same accounted answered
      cases done with
      | false => cases answered
      | true => exact ⟨_, rfl, rfl, accounted rfl, same, rfl, rfl⟩

/-- A store that is open after a step was open before it with the same options,
or has just been opened. -/
theorem opened_cases
    {system : System}
    (sound : system.Sound)
    {op : Op}
    {store : OpenStore}
    (stepped : system.step op = .opened store) :
    (∃ before, system = .opened before ∧ store.options = before.options) ∨
      ∃ file last stopped, system = .closed file last ∧
        op = .openFile store.options stopped ∧
        file.content.SameContent store.db ∧
        store.access = ∅ ∧ store.sweeper = .idle := by
  cases system with
  | opened before =>
      have ended := outcome sound op
      rw [stepped] at ended
      generalize (System.opened before).answer op = answer at ended
      refine Or.inl ⟨before, rfl, ?_⟩
      cases ended <;> rfl
  | closed file last =>
      cases op with
      | openFile options stopped =>
          have same := (openFile_spec stopped file).1
          simp only [step, perform, openStore] at stepped
          cases ended : openFile stopped file with
          | mk done next =>
              rw [ended] at same stepped
              cases done with
              | false => cases stepped
              | true =>
                  cases stepped
                  exact Or.inr ⟨file, last, stopped, rfl, rfl, same, rfl, rfl⟩
      | _ => cases stepped

theorem sound_run
    {system : System}
    (sound : system.Sound)
    (ops : List Op) :
    (system.run ops).Sound :=
  Runs.invariant_run_of_forall Sound
    (fun _ op before => (step_spec before op).1) sound

/-- A store that a run leaves open is exact. -/
theorem accounted_of_run
    {system : System}
    (sound : system.Sound)
    {ops : List Op}
    {store : OpenStore}
    (reached : system.run ops = .opened store) :
    store.db.Accounted := by
  have here := sound_run sound ops
  rwa [reached] at here

/-- What every change keeps, every run keeps. -/
theorem invariant_run_of_change
    (invariant : Database → Prop)
    (preserved : ∀ settings db next, Change settings db next →
      invariant db → invariant next)
    {system : System}
    (sound : system.Sound)
    (start : invariant system.content)
    (ops : List Op) :
    invariant (system.run ops).content := by
  have both : (system.run ops).Sound ∧ invariant (system.run ops).content :=
    Runs.invariant_run_of_forall
      (fun system : System => system.Sound ∧ invariant system.content)
      (fun _ op before =>
        ⟨(step_spec before.1 op).1,
          preserved _ _ _ (step_spec before.1 op).2 before.2⟩)
      ⟨sound, start⟩
  exact both.2

/-! ## Reopening with other options -/

/-- A file is reopened only with options that relate to those it was last open
with. -/
def ReopensWith (related : Options → Options → Prop) : System → Op → Prop
  | .closed _ (some last), .openFile options _ => related last options
  | _, _ => True

/-- The options change only when a closed file is opened. -/
theorem settings_step
    {system : System}
    (sound : system.Sound)
    (op : Op) :
    (system.step op).settings = system.settings ∨
      ∃ file last options stopped, system = .closed file last ∧
        op = .openFile options stopped ∧
        (system.step op).settings = some options := by
  cases system with
  | opened store =>
      have ended := outcome sound op
      generalize (System.opened store).answer op = answer at ended
      generalize (System.opened store).step op = next at ended ⊢
      apply Or.inl
      cases ended <;> rfl
  | closed file last =>
      cases op with
      | openFile options stopped =>
          simp only [step, perform, openStore]
          cases openFile stopped file with
          | mk done next =>
              cases done with
              | false => exact Or.inl rfl
              | true => exact Or.inr ⟨file, last, options, stopped, rfl, rfl, rfl⟩
      | _ => exact Or.inl rfl

/-- Along a run whose reopens keep a transitive relation, the options relate to
the first ones. -/
theorem settings_run
    {related : Options → Options → Prop}
    (transitive : ∀ first second third,
      related first second → related second third → related first third)
    {system : System}
    (sound : system.Sound)
    {first : Options}
    (start : ∃ options, system.settings = some options ∧ related first options)
    {ops : List Op}
    (reopens : Runs.Each step (ReopensWith related) system ops) :
    ∃ options, (system.run ops).settings = some options ∧
      related first options := by
  have both : (system.run ops).Sound ∧ ∃ options,
      (system.run ops).settings = some options ∧ related first options := by
    refine Runs.invariant_run (fun system : System => system.Sound ∧
      ∃ options, system.settings = some options ∧ related first options)
      ?_ ⟨sound, start⟩ reopens
    rintro system op ⟨sound, options, current, holds⟩ reopen
    refine ⟨(step_spec sound op).1, ?_⟩
    rcases settings_step sound op with
      same | ⟨file, last, other, stopped, rfl, rfl, changed⟩
    · exact ⟨options, same.trans current, holds⟩
    · obtain rfl : last = some options := current
      exact ⟨other, changed, transitive _ _ _ holds reopen⟩
  exact both.2

/-- What every change under related options keeps, a run whose reopens stay
related keeps. -/
theorem invariant_run_of_related_change
    {related : Options → Options → Prop}
    (transitive : ∀ first second third,
      related first second → related second third → related first third)
    {first : Options}
    (invariant : Database → Prop)
    (preserved : ∀ options db next, related first options →
      Change (some options) db next → invariant db → invariant next)
    {system : System}
    (sound : system.Sound)
    (current : ∃ options, system.settings = some options ∧
      related first options)
    (start : invariant system.content)
    {ops : List Op}
    (reopens : Runs.Each step (ReopensWith related) system ops) :
    invariant (run system ops).content := by
  induction ops generalizing system with
  | nil => exact start
  | cons op rest inductionHypothesis =>
      obtain ⟨nextSound, change⟩ := step_spec sound op
      obtain ⟨options, isCurrent, holds⟩ := current
      rw [isCurrent] at change
      exact inductionHypothesis nextSound
        (settings_run transitive sound ⟨options, isCurrent, holds⟩
          (show Runs.Each step (ReopensWith related) system [op] from
            ⟨reopens.1, trivial⟩))
        (preserved _ _ _ holds change start) reopens.2

/-- A step opens the file with no options out of a family if it is only opened
with options of the family. -/
theorem family_step
    {family : Options → Prop}
    {system : System}
    (sound : system.Sound)
    (current : ∀ options, system.settings = some options → family options)
    {op : Op}
    (opens : ∀ options stopped, op = .openFile options stopped →
      family options)
    (options : Options)
    (isCurrent : (system.step op).settings = some options) :
    family options := by
  rcases settings_step sound op with
    same | ⟨file, last, other, stopped, rfl, isOpen, changed⟩
  · exact current options (same.symm.trans isCurrent)
  · obtain rfl : other = options :=
      Option.some.inj (changed.symm.trans isCurrent)
    exact opens other stopped isOpen

/-- A run that only ever opens with options out of a family whose members all
relate keeps the relation. -/
theorem reopensWith_of_forall
    {related : Options → Options → Prop}
    {family : Options → Prop}
    (relates : ∀ first second, family first → family second →
      related first second)
    {system : System}
    (sound : system.Sound)
    (start : ∀ options, system.settings = some options → family options)
    {ops : List Op}
    (opens : ∀ options stopped, .openFile options stopped ∈ ops →
      family options) :
    Runs.Each step (ReopensWith related) system ops := by
  induction ops generalizing system with
  | nil => trivial
  | cons op rest inductionHypothesis =>
      refine ⟨?_, inductionHypothesis (step_spec sound op).1 ?_ ?_⟩
      · cases system with
        | opened store => trivial
        | closed file last =>
            cases last with
            | none => trivial
            | some last =>
                cases op with
                | openFile options stopped =>
                    exact relates _ _ (start last rfl)
                      (opens options stopped List.mem_cons_self)
                | _ => trivial
      · exact family_step sound start fun options stopped isOpen =>
          opens options stopped (isOpen ▸ List.mem_cons_self)
      · exact fun options stopped listed =>
          opens options stopped (List.mem_cons_of_mem _ listed)

/-- What every change under options of a family keeps, a run that only ever opens
with such options keeps, and its last options are of the family. -/
theorem invariant_run_of_family
    {family : Options → Prop}
    (invariant : Database → Prop)
    (preserved : ∀ settings db next,
      (∀ options, settings = some options → family options) →
      Change settings db next → invariant db → invariant next)
    {system : System}
    (sound : system.Sound)
    (current : ∀ options, system.settings = some options → family options)
    (start : invariant system.content)
    {ops : List Op}
    (opens : ∀ options stopped, .openFile options stopped ∈ ops →
      family options) :
    invariant (system.run ops).content ∧
      ∀ options, (system.run ops).settings = some options →
        family options := by
  induction ops generalizing system with
  | nil => exact ⟨start, current⟩
  | cons op rest inductionHypothesis =>
      obtain ⟨nextSound, change⟩ := step_spec sound op
      exact inductionHypothesis nextSound
        (family_step sound current fun options stopped isOpen =>
          opens options stopped (isOpen ▸ List.mem_cons_self))
        (preserved _ _ _ current change start)
        fun options stopped listed =>
          opens options stopped (List.mem_cons_of_mem _ listed)

/-- A run that only ever opens with options of a family leaves a store open with
options of the family. -/
theorem options_run_of_family
    {family : Options → Prop}
    {system : System}
    (sound : system.Sound)
    (current : ∀ options, system.settings = some options → family options)
    {ops : List Op}
    (opens : ∀ options stopped, .openFile options stopped ∈ ops →
      family options)
    {store : OpenStore}
    (reached : system.run ops = .opened store) :
    family store.options := by
  refine (invariant_run_of_family (fun _ => True) (fun _ _ _ _ _ _ => trivial)
    sound current trivial opens).2 store.options ?_
  rw [reached]
  rfl

/-- An invariant of an open store that admitted steps preserve holds as long as
the store stays open. -/
theorem invariant_run_opened
    {admits : System → Op → Prop}
    (invariant : OpenStore → Prop)
    (preserved : ∀ store op next,
      Outcome store op ((System.opened store).answer op) (.opened next) →
      Change (some store.options) store.db next.db →
      admits (.opened store) op → invariant store → invariant next)
    {store : OpenStore}
    (accounted : store.db.Accounted)
    (start : invariant store)
    {ops : List Op}
    (running : ∀ op ∈ ops, op ≠ .shut)
    (admitted : Runs.Each step admits (.opened store) ops)
    {last : OpenStore}
    (reached : (System.opened store).run ops = .opened last) :
    invariant last := by
  induction ops generalizing store with
  | nil =>
      cases reached
      exact start
  | cons op rest inductionHypothesis =>
      obtain ⟨first, restRunning⟩ := List.forall_mem_cons.mp running
      obtain ⟨next, stepped, _, nextAccounted⟩ := opened_step accounted first
      have ended := outcome accounted op
      have change := (step_opened_spec accounted op).2
      obtain ⟨here, later⟩ := admitted
      rw [run_cons, stepped] at reached
      rw [stepped] at ended change later
      exact inductionHypothesis nextAccounted
        (preserved store op next ended change here start) restRunning later reached

/-- As long as it stays open, a store is not reopened. -/
theorem reopensWith_of_running
    {related : Options → Options → Prop}
    {store : OpenStore}
    (accounted : store.db.Accounted)
    {ops : List Op}
    (running : ∀ op ∈ ops, op ≠ .shut) :
    Runs.Each step (ReopensWith related) (.opened store) ops := by
  induction ops generalizing store with
  | nil => trivial
  | cons op rest inductionHypothesis =>
      obtain ⟨first, restRunning⟩ := List.forall_mem_cons.mp running
      obtain ⟨next, stepped, _, nextAccounted⟩ := opened_step accounted first
      refine ⟨trivial, ?_⟩
      rw [stepped]
      exact inductionHypothesis nextAccounted restRunning

/-- In every state after a run on a new file the counter has passed every row. -/
theorem numbered_run (ops : List Op) :
    ((System.closed .fresh none).run ops).content.Numbered :=
  invariant_run_of_change Database.Numbered
    (fun _ _ _ change numbered => change.numbered numbered)
    (System.sound_closed .fresh none)
    (fun _ present => absurd present List.not_mem_nil) ops

end System

end Store
end Haste
