import Arm32.Proofs.Running.Cycles

namespace Arm32

/-! The history of a run. Every executed instruction is a step of it, and the steps lead
to the cycle that ends the run. A run is told by its steps and its end, and runs under
other limits or other breakpoints differ from it only in where they leave that path. -/

/-- An executed instruction, by the progress before its cycle and after it. -/
structure Step where
  before : Progress
  after : Progress

/-- The address of the instruction. -/
def Step.address (step : Step) : Word :=
  step.before.machine.programCounter

namespace Progress

/-- The instructions that a run executes, in their order. -/
def history (options : Options) : (limit : Nat) → Progress → List Step
  | 0, _ => []
  | limit + 1, progress =>
      if progress.machine.halted then []
      else
        match progress.cycle options with
        | .ok (.continued next) => ⟨progress, next⟩ :: next.history options limit
        | _ => []

/-- Steps one after another, none of which starts on a halted machine. -/
inductive Path (options : Options) : Progress → List Step → Progress → Prop where
  | nil (progress : Progress) : Path options progress [] progress
  | cons {progress next last : Progress} {steps : List Step}
      (running : progress.machine.halted = false)
      (leads : Leads options progress (.continued next)) (rest : Path options next steps last) :
      Path options progress (⟨progress, next⟩ :: steps) last

/-- How a run that is allowed `limit` cycles ends after `count` complete ones. -/
inductive Finishes (options : Options) (count limit : Nat) (progress : Progress) :
    Ending → Progress → Prop where
  | halted (stopped : progress.machine.halted = true) (within : count ≤ limit) :
      Finishes options count limit progress .halted progress
  | exhausted (running : progress.machine.halted = false)
      (fits : Numeral.FitsDecimal options.stepLimit) (spent : count = limit) :
      Finishes options count limit progress
        (.failed (.stepLimitExceeded ⟨options.stepLimit, fits⟩)) progress
  | ended {ending : Ending} {last : Progress} (running : progress.machine.halted = false)
      (within : count < limit) (leads : Leads options progress (.ended ending last)) :
      Finishes options count limit progress ending last

/-- What a run that is allowed `limit` cycles gives after `count` complete ones. One that
has to name its limit and cannot gives nothing. -/
inductive Gives (options : Options) (count limit : Nat) (progress : Progress) :
    Except Misuse (Ending × Progress) → Prop where
  | finished {ending : Ending} {last : Progress}
      (finishes : Finishes options count limit progress ending last) :
      Gives options count limit progress (.ok (ending, last))
  | unnamed (running : progress.machine.halted = false)
      (tooLong : ¬ Numeral.FitsDecimal options.stepLimit) (spent : count = limit) :
      Gives options count limit progress (.error .numeralTooLong)

variable {options : Options} {progress middle last : Progress} {steps : List Step}
  {ending : Ending} {count limit : Nat} {result : Except Misuse (Ending × Progress)}

theorem Finishes.count_le (finishes : Finishes options count limit progress ending last) :
    count ≤ limit := by
  cases finishes with
  | halted stopped within => exact within
  | exhausted running fits spent => exact Nat.le_of_eq spent
  | ended running within => exact Nat.le_of_lt within

theorem Gives.count_le (gives : Gives options count limit progress result) : count ≤ limit := by
  cases gives with
  | finished finishes => exact finishes.count_le
  | unnamed running tooLong spent => exact Nat.le_of_eq spent

theorem finishes_succ_iff :
    Finishes options (count + 1) (limit + 1) progress ending last ↔
      Finishes options count limit progress ending last := by
  constructor
  · intro finishes
    cases finishes with
    | halted stopped within => exact .halted stopped (Nat.le_of_succ_le_succ within)
    | exhausted running fits spent => exact .exhausted running fits (Nat.succ.inj spent)
    | ended running within leads => exact .ended running (Nat.lt_of_succ_lt_succ within) leads
  · intro finishes
    cases finishes with
    | halted stopped within => exact .halted stopped (Nat.succ_le_succ within)
    | exhausted running fits spent => exact .exhausted running fits (congrArg Nat.succ spent)
    | ended running within leads => exact .ended running (Nat.succ_lt_succ within) leads

theorem gives_succ_iff :
    Gives options (count + 1) (limit + 1) progress result ↔
      Gives options count limit progress result := by
  constructor
  · intro gives
    cases gives with
    | finished finishes => exact .finished (finishes_succ_iff.mp finishes)
    | unnamed running tooLong spent => exact .unnamed running tooLong (Nat.succ.inj spent)
  · intro gives
    cases gives with
    | finished finishes => exact .finished (finishes_succ_iff.mpr finishes)
    | unnamed running tooLong spent =>
        exact .unnamed running tooLong (congrArg Nat.succ spent)

/-! ## From a run to its steps -/

theorem history_of_halted (stopped : progress.machine.halted = true) :
    progress.history options limit = [] := by
  cases limit with
  | zero => rfl
  | succ limit => rw [history, if_pos stopped]

theorem history_of_continued {next : Progress} (running : progress.machine.halted = false)
    (leads : Leads options progress (.continued next)) :
    progress.history options (limit + 1) = ⟨progress, next⟩ :: next.history options limit := by
  rw [history, running, if_neg Bool.false_ne_true, leads.cycle_eq]

theorem history_of_ended (running : progress.machine.halted = false)
    (leads : Leads options progress (.ended ending last)) :
    progress.history options (limit + 1) = [] := by
  rw [history, running, if_neg Bool.false_ne_true, leads.cycle_eq]

/-- A run takes the steps of its history and ends after them. -/
theorem run_history (options : Options) (limit : Nat) (progress : Progress) :
    ∃ middle, Path options progress (progress.history options limit) middle ∧
      Gives options (progress.history options limit).length limit middle
        (progress.run options limit) := by
  induction limit generalizing progress with
  | zero =>
      refine ⟨progress, .nil _, ?_⟩
      cases stopped : progress.machine.halted with
      | true =>
          rw [run_of_halted stopped]
          exact .finished (.halted stopped (Nat.le_refl 0))
      | false =>
          by_cases fits : Numeral.FitsDecimal options.stepLimit
          · rw [run_of_exhausted stopped fits]
            exact .finished (.exhausted stopped fits rfl)
          · rw [run_of_unnamed stopped fits]
            exact .unnamed stopped fits rfl
  | succ limit induction =>
      cases stopped : progress.machine.halted with
      | true =>
          rw [history_of_halted stopped, run_of_halted stopped]
          exact ⟨progress, .nil _, .finished (.halted stopped (Nat.zero_le _))⟩
      | false =>
          rcases cycle_leads options progress with ⟨next, -, leads⟩
          cases next with
          | continued next =>
              rcases induction next with ⟨middle, path, gives⟩
              rw [history_of_continued stopped leads, run_of_continued stopped leads]
              exact ⟨middle, .cons stopped leads path, gives_succ_iff.mpr gives⟩
          | ended ending last =>
              rw [history_of_ended stopped leads, run_of_ended stopped leads]
              exact ⟨progress, .nil _, .finished (.ended stopped (Nat.succ_pos _) leads)⟩

/-! ## From steps to a run -/

namespace Path

/-- After the steps of a path, a run goes on from their end. -/
theorem run_add (path : Path options progress steps middle) (spare : Nat) :
    progress.run options (steps.length + spare) = middle.run options spare := by
  induction path with
  | nil => rw [List.length_nil, Nat.zero_add]
  | cons running leads rest induction =>
      rw [List.length_cons, Nat.add_right_comm, run_of_continued running leads, induction]

/-- A path and what is given at its end are a run and its history. -/
theorem run_eq (path : Path options progress steps middle)
    (gives : Gives options steps.length limit middle result) :
    progress.run options limit = result ∧ progress.history options limit = steps := by
  induction path generalizing limit with
  | nil =>
      cases gives with
      | finished finishes =>
          cases finishes with
          | halted stopped => exact ⟨run_of_halted stopped, history_of_halted stopped⟩
          | exhausted running fits spent =>
              subst spent
              exact ⟨run_of_exhausted running fits, rfl⟩
          | ended running within leads =>
              cases limit with
              | zero => cases within
              | succ limit => exact ⟨run_of_ended running leads, history_of_ended running leads⟩
      | unnamed running tooLong spent =>
          subst spent
          exact ⟨run_of_unnamed running tooLong, rfl⟩
  | cons running leads rest induction =>
      cases limit with
      | zero => cases gives.count_le
      | succ limit =>
          rcases induction (gives_succ_iff.mp gives) with ⟨ran, told⟩
          rw [run_of_continued running leads, history_of_continued running leads, told]
          exact ⟨ran, rfl⟩

/-- What every completed cycle keeps, a path keeps. -/
theorem keeps {Holds : Progress → Prop} (path : Path options progress steps middle)
    (continues : ∀ {progress next}, Holds progress →
      Leads options progress (.continued next) → Holds next)
    (starts : Holds progress) : Holds middle := by
  induction path with
  | nil => exact starts
  | cons running leads rest induction => exact induction (continues starts leads)

/-- Each step of a path is a completed cycle on a running machine. -/
theorem of_mem {step : Step} (path : Path options progress steps middle) (taken : step ∈ steps) :
    step.before.machine.halted = false ∧ Leads options step.before (.continued step.after) := by
  induction path with
  | nil => cases taken
  | cons running leads rest induction =>
      rcases List.mem_cons.mp taken with rfl | later
      · exact ⟨running, leads⟩
      · exact induction later

/-- A machine that has halted takes no further step. -/
theorem eq_getLast {step : Step} (path : Path options progress steps middle)
    (taken : step ∈ steps) (stopped : step.after.machine.halted = true) :
    steps.getLast? = some step := by
  induction path with
  | nil => cases taken
  | cons running leads rest induction =>
      rcases List.mem_cons.mp taken with rfl | later
      · cases rest with
        | nil => rfl
        | cons stillRunning => exact absurd stopped (by rw [stillRunning]; decide)
      · rw [List.getLast?_cons, induction later]
        rfl

end Path

/-! ## Counting -/

theorem Leads.steps_continued {next : Progress} (leads : Leads options progress (.continued next)) :
    next.record.steps = progress.record.steps + 1 := by
  cases leads with
  | completed fetches accepted executed recorded =>
      rcases Record.complete_eq_ok_iff.mp recorded with ⟨trace, -, rfl⟩
      rfl

theorem Leads.steps_ended (leads : Leads options progress (.ended ending last)) :
    last.record.steps = progress.record.steps := by
  cases leads <;> rfl

end Progress

end Arm32
