import Arm32.Proofs.Running.Enlarging
import Arm32.Proofs.Running.Reports

namespace Arm32

/-! The size of memory. A run that never fails at its memory does the same with a
larger one: from the seeds and the image to the report, the size shows only in the
words that are watched past the end of the smaller memory. -/

/-! ## Setup -/

namespace Memory

theorem create_enlarged {size largerSize : Int} {seeds : Seeds} {memory : Memory}
    (ordered : size ≤ largerSize) (created : create size seeds = .ok memory) :
    ∃ larger, create largerSize seeds = .ok larger ∧
      memory.Enlarged size.toNat largerSize.toNat larger := by
  unfold create at created ⊢
  split at created
  case isTrue => cases created
  case isFalse positive =>
    cases seeded : (zeros size.toNat).seed seeds with
    | error fault =>
        rw [seeded] at created
        cases created
    | ok seededMemory =>
        rw [seeded] at created
        cases created
        rcases (enlarged_zeros (Int.toNat_le_toNat ordered)).seed seeded with
          ⟨larger, largerSeeded, enlarged⟩
        rw [if_neg (by omega), largerSeeded]
        exact ⟨larger, rfl, enlarged⟩

end Memory

section

variable {size largerSize : Nat} {options : Options} {alike : Prop}

theorem Machine.enlarged_fresh {memory larger : Memory}
    (enlarged : memory.Enlarged size largerSize larger) :
    (Run.freshMachine options memory).Enlarged size largerSize
      (Run.freshMachine options larger) :=
  ⟨enlarged, rfl⟩

theorem Machine.Enlarged.place {machine larger : Machine}
    (enlarged : machine.Enlarged size largerSize larger) :
    (Run.place options machine).Enlarged size largerSize (Run.place options larger) := by
  unfold Run.place
  split
  · exact enlarged.setProgramCounter _
  · exact enlarged

theorem Machine.Enlarged.withImage {machine larger : Machine}
    (enlarged : machine.Enlarged size largerSize larger) (image : Image) :
    (machine.withImage image).Enlarged size largerSize (larger.withImage image) := by
  have loaded : Machine.Enlarged size largerSize
      { machine with memory := machine.memory.setBytes 0 image }
      { larger with memory := larger.memory.setBytes 0 image } := by
    refine ⟨enlarged.memory.setBytes 0 image, ?_⟩
    rw [enlarged.rest]
  unfold Machine.withImage
  cases image.isElf with
  | true => exact loaded.setProgramCounter _
  | false => exact loaded

/-- An image that fits into the smaller memory is loaded alike. -/
theorem Action.loadImage_enlarged {machine larger after : Machine} {image : Image}
    {loaded : Image.Loaded} (enlarged : machine.Enlarged size largerSize larger)
    (placed : (loadImage image).run machine = .ok loaded after) :
    ∃ largerAfter, (loadImage image).run larger = .ok loaded largerAfter ∧
      after.Enlarged size largerSize largerAfter := by
  have sizes := enlarged.memory.size_eq
  have largerSizes := enlarged.memory.largerSize_eq
  have ordered := enlarged.memory.ordered
  rw [run_loadImage] at placed ⊢
  split at placed
  case isTrue => cases placed
  case isFalse fits =>
    cases placed
    rw [if_neg (by omega), (enlarged.withImage image).programCounter]
    exact ⟨_, rfl, enlarged.withImage image⟩

/-! ## Reports -/

/-- Reports that differ in the memory and the trace only. -/
structure Report.Enlarged (size largerSize : Nat) (alike : Prop) (report larger : Report) :
    Prop where
  machine : report.machine.Enlarged size largerSize larger.machine
  trace : report.trace.Enlarged alike larger.trace
  rest : larger = { report with machine := larger.machine, trace := larger.trace }

/-- The outcome of a run that has failed at its memory. -/
def Outcome.IsAccess (outcome : Outcome) : Prop :=
  ∃ diagnostic, outcome = .failed diagnostic ∧ diagnostic.kind = .memoryAccess

namespace Run

theorem outcomeOf_isAccess {ending : Ending} {record : Record} {outcome : Outcome}
    (access : ending.IsAccess) (told : outcomeOf ending record = .ok outcome) :
    outcome.IsAccess := by
  rcases access with ⟨fault, rfl, kind⟩
  cases outcomeOf_eq_ok_iff.mp told with
  | failed located => exact ⟨_, rfl, (locates_of_locate located).kind.trans kind⟩

theorem outcomeOf_enlarged {record larger : Record} (enlarged : record.Enlarged alike larger)
    (ending : Ending) : outcomeOf ending larger = outcomeOf ending record := by
  rw [enlarged.rest]
  rfl

theorem concluded_enlarged {progress larger : Progress}
    (enlarged : progress.Enlarged size largerSize alike larger) (loaded : Image.Loaded)
    (start : Word) (outcome : Outcome) :
    (concluded options loaded start outcome progress).Enlarged size largerSize alike
      (concluded options loaded start outcome larger) where
  machine := enlarged.machine
  trace := enlarged.record.trace
  rest := by
    rw [concluded, enlarged.record.rest]
    rfl

theorem resume_enlarged {machine larger : Machine} {loaded : Image.Loaded} {report : Report}
    (enlarged : machine.Enlarged size largerSize larger)
    (resumed : resume options loaded machine = .ok report) :
    report.outcome.IsAccess ∨
      ∃ largerReport, resume options loaded larger = .ok largerReport ∧
        report.Enlarged size largerSize (options.WatchesAlike size largerSize) largerReport := by
  have starts : Progress.Enlarged size largerSize (options.WatchesAlike size largerSize)
      ⟨machine, { address := machine.programCounter }⟩
      ⟨larger, { address := machine.programCounter }⟩ :=
    ⟨enlarged, Trace.enlarged_refl _, rfl⟩
  rcases resume_eq_ok_iff.mp resumed with ⟨ending, last, outcome, ran, told, rfl⟩
  rcases Progress.run_enlarged starts ran with access | ⟨largerLast, largerRan, related⟩
  · exact .inl (outcomeOf_isAccess access told)
  · refine .inr ⟨_, ?_, concluded_enlarged related loaded machine.programCounter outcome⟩
    rw [← outcomeOf_enlarged related.record ending] at told
    rw [← enlarged.programCounter] at largerRan ⊢
    exact resume_eq_ok_iff.mpr ⟨ending, largerLast, outcome, largerRan, told, rfl⟩

/-! ## Programs -/

/-- Once there is a memory, a run does not look at the size that it was to have. -/
theorem cycles_withSize (options : Options) (requested : Int) (limit : Nat)
    (progress : Progress) :
    progress.run { options with memorySize := requested } limit = progress.run options limit := by
  induction limit generalizing progress with
  | zero => rfl
  | succ limit induction =>
      have cycled : progress.cycle { options with memorySize := requested } =
          progress.cycle options := rfl
      unfold Progress.run
      rw [cycled]
      split
      · rfl
      · cases progress.cycle options with
        | error misuse => rfl
        | ok next =>
            cases next with
            | continued next => exact induction next
            | ended ending last => rfl

theorem resume_withSize (options : Options) (requested : Int) (loaded : Image.Loaded)
    (machine : Machine) :
    resume { options with memorySize := requested } loaded machine =
      resume options loaded machine := by
  unfold resume
  dsimp only
  rw [cycles_withSize options requested]

end Run

end

/-- Two reports of the same run: the same outcome with the same diagnostic, the same
output, the same count of steps and the same final state. -/
structure Report.SameRun (report other : Report) : Prop where
  outcome : other.outcome = report.outcome
  output : other.output = report.output
  steps : other.steps = report.steps
  registers : other.machine.registers = report.machine.registers
  flags : other.machine.flags = report.machine.flags
  halted : other.machine.halted = report.machine.halted
  registerListing : other.machine.registerListing = report.machine.registerListing
  flagsText : other.machine.flags.text = report.machine.flags.text
  truncated : other.trace.truncated = report.trace.truncated

theorem Report.Enlarged.sameRun {size largerSize : Nat} {alike : Prop} {report larger : Report}
    (enlarged : report.Enlarged size largerSize alike larger) : report.SameRun larger where
  outcome := by rw [enlarged.rest]
  output := by rw [Report.output, Machine.output, enlarged.machine.console]; rfl
  steps := by rw [enlarged.rest]
  registers := enlarged.machine.registers
  flags := enlarged.machine.flags
  halted := enlarged.machine.halted
  registerListing := by
    rw [Machine.registerListing, enlarged.machine.registers]
    rfl
  flagsText := by rw [enlarged.machine.flags]
  truncated := enlarged.trace.truncated

/-- The words at the end of a run are alike if its watches are. -/
theorem Report.Enlarged.watched {size largerSize : Nat} {options : Options} {alike : Prop}
    {report larger : Report} (enlarged : report.Enlarged size largerSize alike larger)
    (asked : report.watchedAddresses = options.watched)
    (agree : options.WatchesAlike size largerSize) : larger.watched = report.watched := by
  have addresses : larger.watchedAddresses = report.watchedAddresses := by rw [enlarged.rest]
  rw [Report.watched, Report.watched, addresses, asked]
  exact enlarged.machine.watch agree

namespace Run

/-- A run that gets past its setup cycles from there. -/
theorem program_of_loaded {image : Image} {options : Options} {memory : Memory}
    {loaded : Image.Loaded} {machine : Machine}
    (created : Memory.create options.memorySize options.seeds = .ok memory)
    (placed : (Action.loadImage image).run (freshMachine options memory) = .ok loaded machine) :
    program image options = resume options loaded (place options machine) := by
  rw [program, created]
  dsimp only
  rw [placed]

/-- A run either fails at its memory during setup or gets past it. -/
theorem program_cases {image : Image} {options : Options} {report : Report}
    (reported : program image options = .ok report) :
    report.outcome.IsAccess ∨
      ∃ memory loaded machine,
        Memory.create options.memorySize options.seeds = .ok memory ∧
        (Action.loadImage image).run (freshMachine options memory) = .ok loaded machine ∧
        resume options loaded (place options machine) = .ok report := by
  unfold program at reported
  cases created : Memory.create options.memorySize options.seeds with
  | error failure =>
      rw [created] at reported
      cases failure with
      | misuse misuse => cases reported
      | fault fault =>
          cases reported
          exact .inl ⟨_, rfl, Memory.create_error_kind created⟩
  | ok memory =>
      rw [created] at reported
      dsimp only at reported
      cases placed : (Action.loadImage image).run (freshMachine options memory) with
      | error failure machine =>
          rw [placed] at reported
          cases failure with
          | misuse misuse => cases reported
          | fault fault =>
              cases reported
              exact .inl ⟨_, rfl, Action.loadImage_error_kind placed⟩
      | ok loaded machine =>
          rw [placed] at reported
          exact .inr ⟨memory, loaded, machine, rfl, placed, reported⟩

/-- A run that has not failed at its memory is the same run with a larger memory. If
every watched address is in range of both memories or of neither, it also has the same
trace and ends with the same watched words. -/
theorem program_enlarged {image : Image} {options : Options} {report : Report} {largerSize : Int}
    (ordered : options.memorySize ≤ largerSize)
    (reported : program image options = .ok report)
    (within : ∀ diagnostic, report.outcome = .failed diagnostic →
      diagnostic.kind ≠ .memoryAccess) :
    ∃ larger, program image { options with memorySize := largerSize } = .ok larger ∧
      report.SameRun larger ∧
      (options.WatchesAlike options.memorySize largerSize →
        larger.trace = report.trace ∧ larger.watched = report.watched) := by
  have passes : ¬ report.outcome.IsAccess := by
    rintro ⟨diagnostic, failed, kind⟩
    exact within diagnostic failed kind
  rcases program_cases reported with
    access | ⟨memory, loaded, machine, created, placed, resumed⟩
  · exact absurd access passes
  · rcases Memory.create_enlarged ordered created with ⟨largerMemory, largerCreated, memories⟩
    rcases Action.loadImage_enlarged (Machine.enlarged_fresh memories) placed with
      ⟨largerMachine, largerPlaced, machines⟩
    rcases resume_enlarged machines.place resumed with
      access | ⟨larger, largerResumed, reports⟩
    · exact absurd access passes
    · have positive := Memory.positive_of_create created
      have size : ((options.memorySize.toNat : Nat) : Int) = options.memorySize := by omega
      have largerSize_eq : ((largerSize.toNat : Nat) : Int) = largerSize := by omega
      refine ⟨larger, ?_, reports.sameRun, fun agree => ?_⟩
      · rw [@program_of_loaded image { options with memorySize := largerSize } _ _ _ largerCreated
          largerPlaced, resume_withSize]
        exact largerResumed
      · have asked : report.watchedAddresses = options.watched := by
          rcases resume_eq_ok_iff.mp resumed with ⟨ending, last, outcome, -, -, rfl⟩
          rfl
        rw [← size, ← largerSize_eq] at agree
        exact ⟨reports.trace.eq agree, reports.watched asked agree⟩

/-- A program that writes a watched word and halts, in sixteen bytes and in more. -/
theorem program_enlarged_store :
    let image : Image := [5, 0, 0xA0, 0xE3, 0x0C, 0, 0x81, 0xE5, 0xFE, 0xFF, 0xFF, 0xEA]
    let options : Options := { memorySize := 16, stepLimit := 3, trace := true, watched := [12] }
    ∃ report larger, program image options = .ok report ∧ report.outcome = .finished ∧
      program image { options with memorySize := 0x100 } = .ok larger ∧ report.SameRun larger ∧
      larger.trace = report.trace ∧ larger.watched = report.watched := by
  intro image options
  have told : (program image options).toOption.map Report.outcome = some .finished := by
    decide +kernel
  cases reported : program image options with
  | error misuse =>
      rw [reported] at told
      cases told
  | ok report =>
      rw [reported] at told
      have finished : report.outcome = .finished := Option.some.inj told
      have within : ∀ diagnostic, report.outcome = .failed diagnostic →
          diagnostic.kind ≠ .memoryAccess := by
        intro diagnostic failed
        rw [finished] at failed
        cases failed
      have agree : options.WatchesAlike options.memorySize 0x100 := by
        intro address listed
        rw [List.mem_singleton.mp listed]
        decide
      rcases program_enlarged (by decide : options.memorySize ≤ 0x100) reported within with
        ⟨larger, largerReported, same, watched⟩
      exact ⟨report, larger, rfl, finished, largerReported, same, watched agree⟩

end Run

end Arm32
