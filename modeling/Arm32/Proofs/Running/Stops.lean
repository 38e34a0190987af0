import Arm32.Proofs.Running.Reports

namespace Arm32

/-! Where a run stops. The step limit and the breakpoints decide how far a run gets and
nothing else: whatever they are, the run goes along the same path. -/

/-- The same options with another step limit and other breakpoints. -/
def Options.withStops (options : Options) (stepLimit : Int) (breakpoints : List Int) : Options :=
  { options with stepLimit, breakpoints }

/-- Only refusals of words name a word. -/
theorem Fault.kind_of_word (fault : Fault) (named : fault.word?.isSome = true) :
    fault.kind = .decoding := by
  cases fault <;> first | rfl | cases named

namespace Progress

variable {options : Options} {progress middle last : Progress} {next : Cycle}
  {steps : List Step} {ending : Ending} {count limit : Nat}

/-! ## Along the path -/

/-- A cycle asks only whether it has come to a breakpoint. -/
theorem Leads.withStops {breakpoints : List Int} (leads : Leads options progress next)
    (stepLimit : Int)
    (same : breakpoints.contains progress.machine.programCounter.toInt =
      options.breakpoints.contains progress.machine.programCounter.toInt) :
    Leads (options.withStops stepLimit breakpoints) progress next := by
  cases leads with
  | stopped reached => exact .stopped (same.trans reached)
  | unread passes outside => exact .unread (same.trans passes) outside
  | undecoded fetches refused => exact .undecoded ⟨same.trans fetches.passes, fetches.reads⟩ refused
  | failed fetches accepted executed =>
      exact .failed ⟨same.trans fetches.passes, fetches.reads⟩ accepted executed
  | completed fetches accepted executed recorded =>
      exact .completed ⟨same.trans fetches.passes, fetches.reads⟩ accepted executed recorded

/-- No completed cycle starts at a breakpoint. -/
theorem Leads.passes {next : Progress} (leads : Leads options progress (.continued next)) :
    options.breakpoints.contains progress.machine.programCounter.toInt = false := by
  cases leads with
  | completed fetches => exact fetches.passes

theorem Path.passes {step : Step} (path : Path options progress steps middle)
    (taken : step ∈ steps) : options.breakpoints.contains step.address.toInt = false :=
  (path.of_mem taken).2.passes

/-- Breakpoints off the path do not matter to it, and neither does the step limit. -/
theorem Path.withStops {breakpoints : List Int} (path : Path options progress steps middle)
    (stepLimit : Int)
    (passes : ∀ step ∈ steps, breakpoints.contains step.address.toInt = false) :
    Path (options.withStops stepLimit breakpoints) progress steps middle := by
  induction path with
  | nil progress => exact .nil progress
  | cons running leads rest induction =>
      have same := (passes _ (List.mem_cons_self)).trans leads.passes.symm
      exact .cons running (leads.withStops stepLimit same) (induction fun step later =>
        passes step (List.mem_cons_of_mem _ later))

/-! ## At its end -/

/-- A run that does not exceed its limit ends in the same way under a larger one. -/
theorem Finishes.withLimit {larger : Int} {longer : Nat}
    (finishes : Finishes options count limit progress ending last)
    (within : ∀ fault, ending = .failed fault → fault.kind ≠ .stepLimit)
    (ordered : limit ≤ longer) :
    Finishes (options.withStops larger options.breakpoints) count longer progress ending last := by
  cases finishes with
  | halted stopped bounded => exact .halted stopped (Nat.le_trans bounded ordered)
  | exhausted running fits spent => exact absurd rfl (within _ rfl)
  | ended running bounded leads =>
      exact .ended running (Nat.lt_of_lt_of_le bounded ordered) (leads.withStops larger rfl)

/-- A run that does not come to a breakpoint ends in the same way without any. -/
theorem Finishes.withoutBreakpoints (finishes : Finishes options count limit progress ending last)
    (passes : ending ≠ .breakpoint) :
    Finishes (options.withStops options.stepLimit []) count limit progress ending last := by
  cases finishes with
  | halted stopped within => exact .halted stopped within
  | exhausted running fits spent =>
      have fitsAgain : Numeral.FitsDecimal (options.withStops options.stepLimit []).stepLimit :=
        fits
      exact .exhausted running fitsAgain spent
  | ended running within leads =>
      refine .ended running within (leads.withStops options.stepLimit ?_)
      cases leads with
      | stopped => exact absurd rfl passes
      | unread missed => exact missed.symm
      | undecoded fetches => exact fetches.passes.symm
      | failed fetches => exact fetches.passes.symm

/-! ## What has been fetched -/

/-- No breakpoint is at the instruction of a record once its word is known. -/
def Passes (options : Options) (record : Record) : Prop :=
  record.word?.isSome = true → options.breakpoints.contains record.address.toInt = false

theorem Leads.passes_continued {next : Progress}
    (leads : Leads options progress (.continued next)) : Passes options next.record := by
  cases leads with
  | completed fetches accepted executed recorded =>
      rcases Record.complete_eq_ok_iff.mp recorded with ⟨trace, -, rfl⟩
      exact fun _ => fetches.passes

theorem Leads.passes_ended (leads : Leads options progress (.ended ending last)) :
    Passes options last.record := by
  intro known
  cases leads with
  | stopped => cases known
  | unread => cases known
  | undecoded fetches => exact fetches.passes
  | failed fetches => exact fetches.passes

theorem Finishes.passes (finishes : Finishes options count limit progress ending last)
    (passes : Passes options progress.record) : Passes options last.record := by
  cases finishes with
  | halted => exact passes
  | exhausted => exact passes
  | ended running within leads => exact leads.passes_ended

/-- A fault that names a word ends a run after the word has been fetched. -/
theorem Finishes.word_isSome {fault : Fault}
    (finishes : Finishes options count limit progress (.failed fault) last)
    (named : fault.word?.isSome = true) : last.record.word?.isSome = true := by
  have kind := fault.kind_of_word named
  cases finishes with
  | exhausted => cases kind
  | ended running within leads =>
      cases leads with
      | unread passes outside =>
          rw [Memory.read_error_kind outside] at kind
          cases kind
      | undecoded => rfl
      | failed => rfl

end Progress

/-! ## The step limit -/

/-- A report shows the beginning of what another one shows. -/
structure Report.Begins (report extended : Report) : Prop where
  steps : report.steps ≤ extended.steps
  rows : report.trace.rows.toList <+: extended.trace.rows.toList
  output : ∃ rest, extended.output = report.output ++ rest

/-- Reports that show the same but for the outcome. -/
structure Report.SameProgress (report other : Report) : Prop where
  machine : other.machine = report.machine
  output : other.output = report.output
  steps : other.steps = report.steps
  trace : other.trace = report.trace
  watched : other.watched = report.watched

namespace Run

variable {image : Image} {options : Options} {machine : Machine} {steps : List Step}
  {middle last : Progress} {ending : Ending} {outcome : Outcome} {larger : Int}

/-- A run that does not exceed its limit takes the same course under a larger one. -/
theorem Course.withLimit (course : Course options machine steps middle ending last outcome)
    (within : ∀ fault, ending = .failed fault → fault.kind ≠ .stepLimit)
    (ordered : options.stepLimit ≤ larger) :
    Course (options.withStops larger options.breakpoints) machine steps middle ending last
      outcome where
  path := course.path.withStops larger fun _ taken => course.path.passes taken
  finishes := course.finishes.withLimit within (Int.toNat_le_toNat ordered)
  tells := course.tells

/-- Under a larger limit, a run that has exceeded its own goes on from where it was. -/
theorem Course.begins (course : Course options machine steps middle ending last outcome)
    (exceeded : outcome.FailsBy .stepLimit) (ordered : options.stepLimit ≤ larger)
    {loaded : Image.Loaded} {extended : Report}
    (resumed : resume { options with stepLimit := larger } loaded machine = .ok extended) :
    (concluded options loaded machine.programCounter outcome last).Begins extended := by
  rcases (course.tells.failsBy_iff .stepLimit).mp exceeded with ⟨fault, rfl, kind⟩
  rcases course.finishes.of_stepLimit kind with ⟨spent, -, rfl⟩
  have path := course.path.withStops larger fun _ taken => course.path.passes taken
  have total : steps.length + (larger.toNat - steps.length) = larger.toNat := by omega
  rcases resume_eq_ok_iff.mp resumed with ⟨laterEnding, later, laterOutcome, ran, -, rfl⟩
  change (Progress.first machine).run (options.withStops larger options.breakpoints) larger.toNat =
    _ at ran
  rw [← total, path.run_add] at ran
  have grown := Progress.extends_run ran
  exact ⟨grown.steps, grown.rows, grown.output⟩

/-- The step limit only cuts a run short. A run that does not exceed its limit is the same
run under a larger one. A run that does has taken as many steps as it was allowed, and
shows the beginning of what a longer run shows. -/
theorem program_stepLimit (image : Image) (options : Options) (larger : Int)
    (positive : 0 < options.memorySize) (ordered : options.stepLimit ≤ larger) :
    Reports image options fun report =>
      (¬ report.outcome.FailsBy .stepLimit →
        program image { options with stepLimit := larger } = .ok report) ∧
      (report.outcome.FailsBy .stepLimit →
        (report.steps : Int) = max options.stepLimit 0 ∧
          Reports image { options with stepLimit := larger } report.Begins) := by
  refine reports_of_holds image positive fun report reported => ?_
  cases setup_cases image positive with
  | refused fault memory event kind abandons =>
      cases reported.symm.trans (abandons options rfl rfl).2
      refine ⟨fun _ => (abandons { options with stepLimit := larger } rfl rfl).2, ?_⟩
      rintro ⟨diagnostic, failed, exceeded⟩
      cases failed
      rw [Fault.diagnostic, kind] at exceeded
      cases exceeded
  | ready loaded memory starts =>
      have resumes := (starts { options with stepLimit := larger } rfl rfl).2
      rcases course_of_resume ((starts options rfl rfl).2.symm.trans reported) with
        ⟨steps, middle, ending, last, outcome, course, rfl⟩
      have failsBy := course.tells.failsBy_iff .stepLimit
      constructor
      · intro within
        have longer := course.withLimit
          (fun fault failed kind => within (failsBy.mpr ⟨fault, failed, kind⟩)) ordered
        exact resumes.trans (longer.resume_eq loaded)
      · intro exceeded
        rcases failsBy.mp exceeded with ⟨fault, rfl, kind⟩
        have spent := (course.finishes.of_stepLimit kind).1
        have count := course.steps_eq
        refine ⟨?_, reports_of_holds image positive fun extended extendedReported => ?_⟩
        · change (last.record.steps : Int) = _
          omega
        · exact course.begins exceeded ordered (resumes.symm.trans extendedReported)

/-- A program of two instructions is cut short after the first one. -/
theorem program_stepLimit_cut :
    let image : Image := [5, 0, 0xA0, 0xE3, 0xFE, 0xFF, 0xFF, 0xEA]
    let options : Options := { memorySize := 16, stepLimit := 1, trace := true }
    ∃ report extended, program image options = .ok report ∧
      program image { options with stepLimit := 2 } = .ok extended ∧
      report.outcome.FailsBy .stepLimit ∧ extended.outcome = .finished ∧
      report.steps = 1 ∧ report.Begins extended := by
  intro image options
  have exceeds : (program image options).toOption.map
      (fun report => decide (report.outcome.FailsBy .stepLimit)) = some true := by decide +kernel
  have finishes : (program image { options with stepLimit := 2 }).toOption.map Report.outcome =
      some .finished := by decide +kernel
  have limit : Numeral.FitsDecimal options.stepLimit :=
    Numeral.fitsDecimal_of_word (by decide) (by decide)
  have largerLimit : Numeral.FitsDecimal 2 := Numeral.fitsDecimal_of_word (by decide) (by decide)
  rcases (program_stepLimit image options 2 (by decide) (by decide)).of_fits limit with
    ⟨report, reported, -, cut⟩
  rw [reported] at exceeds
  have fails : report.outcome.FailsBy .stepLimit := of_decide_eq_true (Option.some.inj exceeds)
  rcases cut fails with ⟨spent, longer⟩
  rcases longer.of_fits largerLimit with ⟨extended, extendedReported, begins⟩
  rw [extendedReported] at finishes
  have count : max (1 : Int) 0 = 1 := by decide
  rw [count] at spent
  exact ⟨report, extended, reported, extendedReported, fails, Option.some.inj finishes,
    Int.ofNat.inj spent, begins⟩

/-! ## Breakpoints -/

/-- A run that does not come to a breakpoint takes the same course without any. -/
theorem Course.withoutBreakpoints
    (course : Course options machine steps middle ending last outcome)
    (passes : ending ≠ .breakpoint) :
    Course (options.withStops options.stepLimit []) machine steps middle ending last outcome where
  path := course.path.withStops options.stepLimit fun _ _ => rfl
  finishes := course.finishes.withoutBreakpoints passes
  tells := course.tells

/-- A run that comes to a breakpoint would have got there without any, in as many steps. -/
theorem Course.sameProgress
    (course : Course options machine steps middle .breakpoint last outcome)
    {loaded : Image.Loaded} {limited : Report}
    (resumed : resume (options.withStops last.record.steps []) loaded machine = .ok limited) :
    (concluded options loaded machine.programCounter outcome last).SameProgress limited := by
  rw [course.steps_eq] at resumed
  rcases course.finishes.of_breakpoint with ⟨running, -, rfl⟩
  have path : Progress.Path (options.withStops steps.length []) (.first machine) steps middle :=
    course.path.withStops steps.length fun _ _ => rfl
  rcases resume_eq_ok_iff.mp resumed with ⟨ending, stopped, limitedOutcome, ran, -, rfl⟩
  have spent := path.run_add 0
  rw [Nat.add_zero] at spent
  change (Progress.first machine).run (options.withStops steps.length [])
    (steps.length : Int).toNat = _ at ran
  rw [Int.toNat_natCast, spent] at ran
  cases Progress.last_eq_of_run_zero ran
  exact ⟨rfl, rfl, rfl, rfl, rfl⟩

/-- An instruction that a run fails at is not at a breakpoint, if it has been fetched. -/
theorem Course.address_passes {diagnostic : Diagnostic}
    (course : Course options machine steps middle ending last (.failed diagnostic))
    (fetched : diagnostic.word?.isSome = true) :
    diagnostic.address ∉ options.breakpoints := by
  have starts : Progress.Passes options (Progress.first machine).record := by
    intro known
    cases known
  have passes : Progress.Passes options last.record :=
    course.finishes.passes (course.path.keeps (fun _ leads => leads.passes_continued) starts)
  cases course.tells with
  | @failed fault diagnostic located =>
      have locates := locates_of_locate located
      have known : last.record.word?.isSome = true := by
        cases named : fault.word? with
        | some word => exact course.finishes.word_isSome (by rw [named]; rfl)
        | none => simpa [locates.word, named] using fetched
      simpa [locates.address] using passes known

/-- A breakpoint stops a run before the instruction there and changes nothing else. No
instruction at a breakpoint is executed or fails. A run that does not stop at one is the
same run without any, and a run that does is where a run without any is after as many
steps. -/
theorem program_breakpoints (image : Image) (options : Options)
    (positive : 0 < options.memorySize) :
    Reports image options fun report =>
      (history image options).length = report.steps ∧
      (∀ step ∈ history image options, step.address.toInt ∉ options.breakpoints) ∧
      (∀ diagnostic, report.outcome = .failed diagnostic → diagnostic.word?.isSome = true →
        diagnostic.address ∉ options.breakpoints) ∧
      (report.outcome.status ≠ "break" →
        program image { options with breakpoints := [] } = .ok report) ∧
      (report.outcome.status = "break" →
        report.outcome.diagnostic? = none ∧
        report.machine.programCounter.toInt ∈ options.breakpoints ∧
        report.machine.halted = false ∧
        Reports image { options with breakpoints := [], stepLimit := report.steps }
          report.SameProgress) := by
  refine reports_of_holds image positive fun report reported => ?_
  cases setup_cases image positive with
  | refused fault memory event kind abandons =>
      rcases abandons options rfl rfl with ⟨unstarted, abandoned⟩
      cases reported.symm.trans abandoned
      rw [history_of_unstarted unstarted]
      refine ⟨rfl, ?_, ?_, fun _ => (abandons { options with breakpoints := [] } rfl rfl).2,
        fun stopped => ?_⟩
      · intro step taken
        cases taken
      · intro diagnostic failed named
        cases failed
        have decoding := fault.kind_of_word (by simpa [Fault.diagnostic] using named)
        rw [kind] at decoding
        cases decoding
      · cases Outcome.status_eq_break_iff.mp stopped
  | ready loaded memory starts =>
      rcases starts options rfl rfl with ⟨started, resumes⟩
      rcases course_of_resume (resumes.symm.trans reported) with
        ⟨steps, middle, ending, last, outcome, course, rfl⟩
      rw [course.history_eq started]
      refine ⟨course.steps_eq.symm, ?passes, ?named, ?free, ?stopped⟩
      case passes =>
        intro step taken
        simpa using course.path.passes taken
      case named =>
        intro diagnostic failed fetched
        cases failed
        exact course.address_passes fetched
      case free =>
        intro runs
        have passes : ending ≠ .breakpoint := fun reached =>
          runs (Outcome.status_eq_break_iff.mpr (course.tells.interrupted_iff.mpr reached))
        exact (starts { options with breakpoints := [] } rfl rfl).2.trans
          ((course.withoutBreakpoints passes).resume_eq loaded)
      case stopped =>
        intro stopped
        have interrupted := Outcome.status_eq_break_iff.mp stopped
        cases course.tells.interrupted_iff.mp interrupted
        have same : Reports image (options.withStops last.record.steps [])
            (concluded options loaded _ outcome last).SameProgress :=
          reports_of_holds image positive fun limited limitedReported => course.sameProgress
            ((starts (options.withStops _ []) rfl rfl).2.symm.trans limitedReported)
        rcases course.finishes.of_breakpoint with ⟨running, reached, rfl⟩
        exact ⟨by rw [interrupted]; rfl, List.contains_iff_mem.mp reached, running, same⟩

/-- A program that would halt at its second instruction, and stops before it. -/
theorem program_breakpoints_second :
    let image : Image := [5, 0, 0xA0, 0xE3, 0xFE, 0xFF, 0xFF, 0xEA]
    let options : Options := { memorySize := 16, breakpoints := [4, -1, 4] }
    ∃ report limited, program image options = .ok report ∧ report.outcome.status = "break" ∧
      report.machine.programCounter.toInt ∈ options.breakpoints ∧ report.machine.halted = false ∧
      program image { options with breakpoints := [], stepLimit := report.steps } = .ok limited ∧
      report.SameProgress limited := by
  intro image options
  have told : (program image options).toOption.map Report.outcome = some .interrupted := by
    decide +kernel
  have limit : Numeral.FitsDecimal options.stepLimit :=
    Numeral.fitsDecimal_of_word (by decide) (by decide)
  have count : (program image options).toOption.map Report.steps = some 1 := by decide +kernel
  rcases (program_breakpoints image options (by decide)).of_fits limit with
    ⟨report, reported, -, -, -, -, stops⟩
  rw [reported] at told count
  have steps : report.steps = 1 := Option.some.inj count
  have stopped := Outcome.status_eq_break_iff.mpr (Option.some.inj told)
  rcases stops stopped with ⟨-, reached, running, limits⟩
  have newLimit : Numeral.FitsDecimal report.steps := by
    rw [steps]
    exact Numeral.fitsDecimal_of_word (by decide) (by decide)
  rcases limits.of_fits newLimit with ⟨limited, limitedReported, same⟩
  exact ⟨report, limited, reported, stopped, reached, running, limitedReported, same⟩

end Run

end Arm32
