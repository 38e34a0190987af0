import Arm32.Proofs.Running.Reports

namespace Arm32

/-! The outcome of a run fits the rest of its report, and the flag that it reads off the
machine goes up in one way only: in the last step, by an instruction that halts. -/

/-- A path leads to where its last step does. -/
theorem Progress.Path.last_step {options : Options} {progress middle : Progress}
    {steps : List Step} (path : Path options progress steps middle) :
    (steps = [] ∧ middle = progress) ∨
      ∃ step, steps.getLast? = some step ∧ step.after = middle := by
  induction path with
  | nil => exact .inl ⟨rfl, rfl⟩
  | cons running leads rest induction =>
      rcases induction with ⟨rfl, rfl⟩ | ⟨step, final, reached⟩
      · exact .inr ⟨_, rfl, rfl⟩
      · refine .inr ⟨step, ?_, reached⟩
        rw [List.getLast?_cons, final]
        rfl

/-- The status, the diagnostic, the machine and the count of a report fit together. -/
structure Report.Consistent (report : Report) (options : Options) : Prop where
  ok_iff : report.outcome.status = "ok" ↔ report.machine.halted = true
  error_iff : report.outcome.status = "error" ↔ report.outcome.diagnostic?.isSome = true
  break_iff : report.outcome.status = "break" ↔
    report.machine.halted = false ∧ report.outcome.diagnostic? = none
  breaks_at : report.outcome.status = "break" →
    report.machine.programCounter.toInt ∈ options.breakpoints
  steps_le : (report.steps : Int) ≤ max 0 options.stepLimit
  steps_eq : report.outcome.FailsBy .stepLimit → (report.steps : Int) = max 0 options.stepLimit

namespace Run

variable {options : Options} {machine : Machine} {steps : List Step} {middle last : Progress}
  {ending : Ending} {outcome : Outcome}

/-- A run that never started has failed, and not by its limit. -/
theorem abandoned_consistent {fault : Fault} {event : Event} (running : machine.halted = false)
    (unlimited : fault.kind ≠ .stepLimit) :
    (abandoned options fault machine event).Consistent options := by
  refine ⟨?ok, ?error, ?stopped, ?reached, by simp only [abandoned]; omega, ?exceeded⟩
  case ok => simp [abandoned, Outcome.status, running]
  case error => simp [abandoned, Outcome.status, Outcome.diagnostic?]
  case stopped => simp [abandoned, Outcome.status, Outcome.diagnostic?]
  case reached =>
    intro stopped
    cases Outcome.status_eq_break_iff.mp stopped
  case exceeded =>
    rintro ⟨diagnostic, failed, exceeded⟩
    cases failed
    exact absurd exceeded unlimited

theorem Course.consistent (course : Course options machine steps middle ending last outcome)
    (loaded : Image.Loaded) :
    (concluded options loaded machine.programCounter outcome last).Consistent options := by
  have halted := course.finishes.halted_iff
  have count : (concluded options loaded machine.programCounter outcome last).steps =
      steps.length := course.steps_eq
  have within := course.finishes.count_le
  refine ⟨?ok, ?error, ?stopped, ?reached, by omega, ?exceeded⟩
  case ok => cases course.tells <;> simp [concluded, Outcome.status, halted]
  case error => cases course.tells <;> simp [concluded, Outcome.status, Outcome.diagnostic?]
  case stopped =>
    rw [← Bool.not_eq_true]
    cases course.tells <;> simp [concluded, Outcome.status, Outcome.diagnostic?, halted]
  case reached =>
    intro stopped
    cases course.tells.interrupted_iff.mp (Outcome.status_eq_break_iff.mp stopped)
    rcases course.finishes.of_breakpoint with ⟨-, reached, rfl⟩
    exact List.contains_iff_mem.mp reached
  case exceeded =>
    intro exceeded
    rcases (course.tells.failsBy_iff .stepLimit).mp exceeded with ⟨fault, rfl, kind⟩
    have spent := (course.finishes.of_stepLimit kind).1
    omega

/-- The run halts the machine in its last step, if it halts it, and by that step. -/
theorem Course.halts (course : Course options machine steps middle ending last outcome)
    (running : machine.halted = false) :
    (∀ step ∈ steps, step.before.machine.halted = false ∧
      (step.after.machine.halted = true ↔ step.Halts) ∧
      (step.after.machine.halted = true → steps.getLast? = some step)) ∧
    (last.machine.halted = true →
      ∃ step, steps.getLast? = some step ∧ step.after.machine = last.machine) := by
  constructor
  · intro step taken
    rcases course.path.of_mem taken with ⟨stepRunning, leads⟩
    exact ⟨stepRunning, leads.halted_iff stepRunning, course.path.eq_getLast taken⟩
  · intro stopped
    cases course.finishes.halted_iff.mp stopped
    cases course.finishes with
    | halted =>
        rcases course.path.last_step with ⟨-, rfl⟩ | ⟨step, final, reached⟩
        · exact absurd stopped (by rw [Progress.first, running]; decide)
        · exact ⟨step, final, by rw [reached]⟩
    | ended stillRunning within leads => cases leads

/-- The outcome of a run is consistent. The machine halts in the last step of a run or not
at all, and the instruction of that step is a branch to itself or the call that exits. -/
theorem program_consistent (image : Image) (options : Options)
    (positive : 0 < options.memorySize) :
    Reports image options fun report => report.Consistent options ∧
      (history image options).length = report.steps ∧
      (∀ step ∈ history image options, step.before.machine.halted = false ∧
        (step.after.machine.halted = true ↔ step.Halts) ∧
        (step.after.machine.halted = true → (history image options).getLast? = some step)) ∧
      (report.machine.halted = true → ∃ step, (history image options).getLast? = some step ∧
        step.after.machine = report.machine) := by
  refine reports_of_holds image positive fun report reported => ?_
  cases setup_cases image positive with
  | refused fault memory event kind abandons =>
      rcases abandons options rfl rfl with ⟨unstarted, abandoned⟩
      cases reported.symm.trans abandoned
      rw [history_of_unstarted unstarted]
      have unlimited : fault.kind ≠ .stepLimit := by rw [kind]; decide
      refine ⟨abandoned_consistent rfl unlimited, rfl, ?_, ?_⟩
      · intro step taken
        cases taken
      · intro stopped
        cases stopped
  | ready loaded memory starts =>
      rcases starts options rfl rfl with ⟨started, resumes⟩
      rcases course_of_resume (resumes.symm.trans reported) with
        ⟨steps, middle, ending, last, outcome, course, rfl⟩
      have running : (place options ((freshMachine options memory).withImage image)).halted =
          false :=
        (Machine.sameOutward_started options memory image).halted
      rw [course.history_eq started]
      exact ⟨course.consistent loaded, course.steps_eq.symm, course.halts running⟩

/-- A program whose second and last instruction is a branch to itself. -/
theorem program_consistent_branch :
    let image : Image := [5, 0, 0xA0, 0xE3, 0xFE, 0xFF, 0xFF, 0xEA]
    let options : Options := { memorySize := 16, stepLimit := 2 }
    ∃ report, program image options = .ok report ∧ report.outcome.status = "ok" ∧
      report.Consistent options ∧ report.steps = 2 ∧
      ∃ step, (history image options).getLast? = some step ∧ step.Halts := by
  intro image options
  have told : (program image options).toOption.map
      (fun report => (report.outcome.status, report.steps)) = some ("ok", 2) := by decide +kernel
  have limit : Numeral.FitsDecimal options.stepLimit :=
    Numeral.fitsDecimal_of_word (by decide) (by decide)
  rcases (program_consistent image options (by decide)).of_fits limit with
    ⟨report, reported, consistent, -, path, final⟩
  rw [reported] at told
  rcases Prod.mk.inj (Option.some.inj told) with ⟨finished, steps⟩
  have halted := consistent.ok_iff.mp finished
  rcases final halted with ⟨step, last, reached⟩
  have stopped : step.after.machine.halted = true := by rw [reached, halted]
  exact ⟨report, reported, finished, consistent, steps, step, last,
    (path step (List.mem_of_getLast? last)).2.1.mp stopped⟩

end Run

end Arm32
