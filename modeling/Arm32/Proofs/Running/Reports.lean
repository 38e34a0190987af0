import Arm32.Proofs.Memory.Refusals
import Arm32.Proofs.Running.Endings
import Arm32.Proofs.Running.Records
import Arm32.Proofs.Running.Setup

namespace Arm32

/-! From the cycles of a run to its report. Setup depends on nothing but the image, the
size of memory and the seeds. Past it, a run takes its steps from the machine that it
starts with, and the report says where they have led. There is a report unless the run
outlasts a step limit that it cannot name. -/

/-- The progress with which a machine starts to cycle. -/
def Progress.first (machine : Machine) : Progress :=
  ⟨machine, { address := machine.programCounter }⟩

/-- The outcome of a run that failed by a fault of the kind. -/
def Outcome.FailsBy (outcome : Outcome) (kind : FaultKind) : Prop :=
  ∃ diagnostic, outcome = .failed diagnostic ∧ diagnostic.kind = kind

instance (outcome : Outcome) (kind : FaultKind) : Decidable (outcome.FailsBy kind) :=
  decidable_of_iff (outcome.diagnostic?.map Diagnostic.kind = some kind) <| by
    cases outcome <;> simp [Outcome.FailsBy, Outcome.diagnostic?]

theorem Outcome.status_eq_break_iff {outcome : Outcome} :
    outcome.status = "break" ↔ outcome = .interrupted := by
  cases outcome <;> simp [Outcome.status]

/-- What the record of a run adds to a fault. -/
structure Diagnostic.Locates (diagnostic : Diagnostic) (fault : Fault) (record : Record) :
    Prop where
  kind : diagnostic.kind = fault.kind
  message : diagnostic.message = fault.message
  step : diagnostic.step = record.steps
  address : diagnostic.address = record.address.toInt
  word : diagnostic.word? = (fault.word?.or record.word?).map Word.toInt
  untold : record.instruction? = none → diagnostic.instructionText? = none
  told : ∀ instruction, record.instruction? = some instruction →
    ∃ text, instruction.text (some record.address.toInt) = .ok text ∧
      diagnostic.instructionText? = some text

namespace Run

/-- The machine that a run starts with, if it gets past its setup. -/
def start? (image : Image) (options : Options) : Option Machine :=
  match Memory.create options.memorySize options.seeds with
  | .error _ => none
  | .ok memory =>
      match (Action.loadImage image).run (freshMachine options memory) with
      | .error _ _ => none
      | .ok _ machine => some (place options machine)

/-- The instructions that a run executes. -/
def history (image : Image) (options : Options) : List Step :=
  match start? image options with
  | some machine => (Progress.first machine).history options options.stepLimit.toNat
  | none => []

variable {image : Image} {options : Options} {machine : Machine}

theorem history_of_unstarted (unstarted : start? image options = none) :
    history image options = [] := by
  rw [history, unstarted]

/-! ## Outcomes -/

/-- A diagnostic has the cause from the fault and the place from the record. -/
theorem locates_of_locate {fault : Fault} {record : Record} {diagnostic : Diagnostic}
    (located : locate fault record = .ok diagnostic) : diagnostic.Locates fault record := by
  rw [locate] at located
  cases known : record.instruction? with
  | none =>
      rw [known] at located
      cases located
      refine ⟨rfl, rfl, rfl, rfl, rfl, fun _ => rfl, ?_⟩
      intro instruction impossible
      rw [known] at impossible
      cases impossible
  | some instruction =>
      rw [known] at located
      dsimp only at located
      cases written : instruction.text (some record.address.toInt) with
      | error misuse =>
          rw [written] at located
          cases located
      | ok text =>
          rw [written] at located
          cases located
          refine ⟨rfl, rfl, rfl, rfl, rfl, ?_, ?_⟩
          · intro impossible
            rw [known] at impossible
            cases impossible
          · intro again same
            rw [known] at same
            cases same
            exact ⟨text, written, rfl⟩

/-- The outcome of a run, by how it ended. -/
inductive Tells (record : Record) : Ending → Outcome → Prop where
  | finished : Tells record .halted .finished
  | interrupted : Tells record .breakpoint .interrupted
  | failed {fault : Fault} {diagnostic : Diagnostic}
      (located : locate fault record = .ok diagnostic) :
      Tells record (.failed fault) (.failed diagnostic)

theorem outcomeOf_eq_ok_iff {ending : Ending} {record : Record} {outcome : Outcome} :
    outcomeOf ending record = .ok outcome ↔ Tells record ending outcome := by
  constructor
  · intro told
    cases ending with
    | halted =>
        cases told
        exact .finished
    | breakpoint =>
        cases told
        exact .interrupted
    | failed fault =>
        rw [outcomeOf] at told
        cases located : locate fault record with
        | error misuse =>
            rw [located] at told
            cases told
        | ok diagnostic =>
            rw [located] at told
            cases told
            exact .failed located
  · intro tells
    cases tells with
    | finished => rfl
    | interrupted => rfl
    | failed located =>
        rw [outcomeOf, located]
        rfl

/-- A run is reported to have failed by the kind of fault that ended it. -/
theorem Tells.failsBy_iff {ending : Ending} {record : Record} {outcome : Outcome}
    (tells : Tells record ending outcome) (kind : FaultKind) :
    outcome.FailsBy kind ↔ ∃ fault, ending = .failed fault ∧ fault.kind = kind := by
  constructor
  · rintro ⟨diagnostic, rfl, same⟩
    cases tells with
    | failed located => exact ⟨_, rfl, (locates_of_locate located).kind.symm.trans same⟩
  · rintro ⟨fault, rfl, same⟩
    cases tells with
    | failed located => exact ⟨_, rfl, (locates_of_locate located).kind.trans same⟩

theorem Tells.interrupted_iff {ending : Ending} {record : Record} {outcome : Outcome}
    (tells : Tells record ending outcome) : outcome = .interrupted ↔ ending = .breakpoint := by
  cases tells <;> simp

/-! ## Cycles -/

/-- The report of a run that has started, by the progress it has made. -/
def concluded (options : Options) (loaded : Image.Loaded) (start : Word) (outcome : Outcome)
    (progress : Progress) : Report where
  outcome := outcome
  machine := progress.machine
  steps := progress.record.steps
  trace := progress.record.trace
  watchedAddresses := options.watched
  journal := openingEvents loaded start ++
    progress.record.calls.reverse.map .called ++ closingEvents outcome progress.record

theorem resume_eq_ok_iff {machine : Machine} {loaded : Image.Loaded} {report : Report} :
    resume options loaded machine = .ok report ↔
      ∃ ending last outcome,
        Progress.run options options.stepLimit.toNat
          ⟨machine, { address := machine.programCounter }⟩ = .ok (ending, last) ∧
        outcomeOf ending last.record = .ok outcome ∧
        report = concluded options loaded machine.programCounter outcome last := by
  rw [resume]
  dsimp only
  cases Progress.run options options.stepLimit.toNat
      ⟨machine, { address := machine.programCounter }⟩ with
  | error misuse => simp [bind, Except.bind]
  | ok result =>
      rcases result with ⟨ending, last⟩
      constructor
      · intro resumed
        cases told : outcomeOf ending last.record with
        | error misuse =>
            simp only [bind, Except.bind, told] at resumed
            cases resumed
        | ok outcome =>
            simp only [bind, Except.bind, told] at resumed
            cases resumed
            exact ⟨ending, last, outcome, rfl, told, rfl⟩
      · rintro ⟨ending, last, outcome, ran, told, rfl⟩
        cases ran
        simp only [bind, Except.bind, told]
        rfl

/-- However a run ends, there is a report of it. -/
theorem resume_of_run {ending : Ending} {last : Progress}
    (ran : (Progress.first machine).run options options.stepLimit.toNat = .ok (ending, last))
    (loaded : Image.Loaded) :
    ∃ outcome, Tells last.record ending outcome ∧
      resume options loaded machine =
        .ok (concluded options loaded machine.programCounter outcome last) := by
  -- Nothing has been decoded yet.
  have starts : (Progress.first machine).record.Legible := by
    intro instruction known
    cases known
  have legible : last.record.Legible :=
    Progress.holds_of_run (fun _ leads => leads.legible_continued)
      (fun _ leads => leads.legible_ended) starts ran
  rcases outcomeOf_succeeds ending legible with ⟨outcome, told⟩
  exact ⟨outcome, outcomeOf_eq_ok_iff.mp told,
    resume_eq_ok_iff.mpr ⟨ending, last, outcome, ran, told, rfl⟩⟩

theorem resume_of_misuse {misuse : Misuse}
    (ran : (Progress.first machine).run options options.stepLimit.toNat = .error misuse)
    (loaded : Image.Loaded) : resume options loaded machine = .error misuse := by
  rw [Progress.first] at ran
  rw [resume]
  dsimp only
  rw [ran]
  rfl

/-- A run from its first cycle on: the steps that it takes, how it ends after them, and
what it reports. -/
structure Course (options : Options) (machine : Machine) (steps : List Step) (middle : Progress)
    (ending : Ending) (last : Progress) (outcome : Outcome) : Prop where
  path : Progress.Path options (.first machine) steps middle
  finishes : Progress.Finishes options steps.length options.stepLimit.toNat middle ending last
  tells : Tells last.record ending outcome

theorem course_of_path {steps : List Step} {middle last : Progress} {ending : Ending}
    (path : Progress.Path options (.first machine) steps middle)
    (finishes : Progress.Finishes options steps.length options.stepLimit.toNat middle ending last) :
    ∃ outcome, Course options machine steps middle ending last outcome := by
  rcases resume_of_run (path.run_eq (.finished finishes)).1 ⟨0, 0, false⟩ with ⟨outcome, tells, -⟩
  exact ⟨outcome, path, finishes, tells⟩

/-- The machine still runs after as many instructions as the limit allows. -/
def Outlasts (options : Options) (machine : Machine) : Prop :=
  ∃ steps middle, Progress.Path options (.first machine) steps middle ∧
    steps.length = options.stepLimit.toNat ∧ middle.machine.halted = false

theorem Outlasts.resume_eq (outlasts : Outlasts options machine)
    (tooLong : ¬ Numeral.FitsDecimal options.stepLimit) (loaded : Image.Loaded) :
    resume options loaded machine = .error .numeralTooLong := by
  rcases outlasts with ⟨steps, middle, path, spent, running⟩
  exact resume_of_misuse (path.run_eq (.unnamed running tooLong spent)).1 loaded

/-- A run takes its course, or it comes to a limit that it cannot name. -/
theorem course_cases (options : Options) (machine : Machine) :
    (∃ steps middle ending last outcome,
        Course options machine steps middle ending last outcome) ∨
      (Outlasts options machine ∧ ¬ Numeral.FitsDecimal options.stepLimit) := by
  rcases Progress.run_history options options.stepLimit.toNat (.first machine) with
    ⟨middle, path, gives⟩
  generalize (Progress.first machine).run options options.stepLimit.toNat = result at gives
  cases gives with
  | finished finishes =>
      rcases course_of_path path finishes with ⟨outcome, course⟩
      exact .inl ⟨_, middle, _, _, outcome, course⟩
  | unnamed running tooLong spent => exact .inr ⟨⟨_, middle, path, spent, running⟩, tooLong⟩

namespace Course

variable {steps : List Step} {middle last : Progress} {ending : Ending} {outcome : Outcome}

theorem resume_eq (course : Course options machine steps middle ending last outcome)
    (loaded : Image.Loaded) :
    resume options loaded machine =
      .ok (concluded options loaded machine.programCounter outcome last) :=
  resume_eq_ok_iff.mpr ⟨ending, last, outcome, (course.path.run_eq (.finished course.finishes)).1,
    outcomeOf_eq_ok_iff.mpr course.tells, rfl⟩

/-- The history of a run is made of the steps of its course. -/
theorem history_eq (course : Course options machine steps middle ending last outcome)
    (started : start? image options = some machine) : history image options = steps := by
  rw [history, started]
  exact (course.path.run_eq (.finished course.finishes)).2

/-- The count of a report is that of the steps. -/
theorem steps_eq (course : Course options machine steps middle ending last outcome) :
    last.record.steps = steps.length := by
  rw [course.finishes.steps, course.path.steps]
  exact Nat.zero_add _

end Course

/-- A report of a run that has started tells its course. -/
theorem course_of_resume {loaded : Image.Loaded} {report : Report}
    (resumed : resume options loaded machine = .ok report) :
    ∃ steps middle ending last outcome,
      Course options machine steps middle ending last outcome ∧
        report = concluded options loaded machine.programCounter outcome last := by
  rcases course_cases options machine with
    ⟨steps, middle, ending, last, outcome, course⟩ | ⟨outlasts, tooLong⟩
  · rw [course.resume_eq loaded] at resumed
    cases resumed
    exact ⟨steps, middle, ending, last, outcome, course, rfl⟩
  · rw [outlasts.resume_eq tooLong loaded] at resumed
    cases resumed

/-! ## Setup -/

/-- What becomes of a run before its first cycle, and of every other run of the image with
the same size of memory and the same seeds. -/
inductive Setup (image : Image) (options : Options) : Prop where
  | refused (fault : Fault) (memory : Memory) (event : Event) (kind : fault.kind = .memoryAccess)
      (abandons : ∀ other : Options, other.memorySize = options.memorySize →
        other.seeds = options.seeds → start? image other = none ∧
          program image other = .ok (abandoned other fault (freshMachine other memory) event))
  | ready (loaded : Image.Loaded) (memory : Memory)
      (starts : ∀ other : Options, other.memorySize = options.memorySize →
        other.seeds = options.seeds →
        start? image other = some (place other ((freshMachine other memory).withImage image)) ∧
          program image other =
            resume other loaded (place other ((freshMachine other memory).withImage image)))

theorem setup_cases (image : Image) (positive : 0 < options.memorySize) : Setup image options := by
  cases created : Memory.create options.memorySize options.seeds with
  | error failure =>
      rcases Memory.create_error positive created with ⟨fault, rfl⟩
      refine .refused fault (.zeros options.memorySize.toNat) (.seedingFailed fault.message)
        (Memory.create_error_kind created) fun other sameSize sameSeeds => ?_
      rw [start?, program, sameSize, sameSeeds, created]
      exact ⟨rfl, rfl⟩
  | ok memory =>
      by_cases tooLarge : memory.size < image.length
      · refine .refused (.imageTooLarge image.length memory.size) memory
          (.loadingFailed (Fault.imageTooLarge image.length memory.size).message) rfl
          fun other sameSize sameSeeds => ?_
        have tooLargeAgain : (freshMachine other memory).memory.size < image.length := tooLarge
        rw [start?, program, sameSize, sameSeeds, created]
        dsimp only
        rw [Action.run_loadImage, if_pos tooLargeAgain]
        exact ⟨rfl, rfl⟩
      · refine .ready ⟨image.length,
          ((freshMachine options memory).withImage image).programCounter, image.isElf⟩ memory
          fun other sameSize sameSeeds => ?_
        have fits : ¬ (freshMachine other memory).memory.size < image.length := tooLarge
        rw [start?, program, sameSize, sameSeeds, created]
        dsimp only
        rw [Action.run_loadImage, if_neg fits, Machine.programCounter_withImage,
          Machine.programCounter_withImage]
        exact ⟨rfl, rfl⟩

theorem positive_of_program {report : Report} (reported : program image options = .ok report) :
    0 < options.memorySize := by
  rcases Int.lt_or_le 0 options.memorySize with positive | negative
  · exact positive
  · rw [program, Memory.create, if_pos negative] at reported
    cases reported

/-! ## Reports -/

/-- The run has a report, of which something holds, unless it has to name its step limit
and cannot. -/
def Reports (image : Image) (options : Options) (Holds : Report → Prop) : Prop :=
  (∃ report, program image options = .ok report ∧ Holds report) ∨
    (program image options = .error .numeralTooLong ∧ ¬ Numeral.FitsDecimal options.stepLimit)

theorem reports_of_holds {Holds : Report → Prop} (image : Image)
    (positive : 0 < options.memorySize)
    (holds : ∀ report, program image options = .ok report → Holds report) :
    Reports image options Holds := by
  cases setup_cases image positive with
  | refused fault memory event kind abandons =>
      have abandoned := (abandons options rfl rfl).2
      exact .inl ⟨_, abandoned, holds _ abandoned⟩
  | ready loaded memory starts =>
      have resumes := (starts options rfl rfl).2
      rcases course_cases options
        (place options ((freshMachine options memory).withImage image)) with
        ⟨steps, middle, ending, last, outcome, course⟩ | ⟨outlasts, tooLong⟩
      · have reported := resumes.trans (course.resume_eq loaded)
        exact .inl ⟨_, reported, holds _ reported⟩
      · exact .inr ⟨resumes.trans (outlasts.resume_eq tooLong loaded), tooLong⟩

theorem Reports.of_fits {Holds : Report → Prop} (reports : Reports image options Holds)
    (fits : Numeral.FitsDecimal options.stepLimit) :
    ∃ report, program image options = .ok report ∧ Holds report := by
  rcases reports with reported | ⟨-, tooLong⟩
  · exact reported
  · exact absurd fits tooLong

end Run

/-- Setup does not show outside. -/
theorem Machine.sameOutward_started (options : Options) (memory : Memory) (image : Image) :
    (Run.freshMachine options memory).SameOutward
      (Run.place options ((Run.freshMachine options memory).withImage image)) := by
  rw [Run.place, withImage]
  cases options.startAddress? <;> cases image.isElf <;> exact ⟨rfl, rfl⟩

end Arm32
