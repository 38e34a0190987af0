import Arm32.Proofs.Execution.Echo
import Arm32.Proofs.Running.Reports

namespace Arm32

/-! Watching a run. What is traced, what is watched and whether the output is copied do
not change what a program does: with all that left out of it, a run is the run that was
asked for nothing of the kind. -/

/-- The options without a trace, watched words and a copy of the output. -/
def Options.unobserved (options : Options) : Options :=
  { options with
    trace := false, traceRegisters := true, traceLimit := 0, watched := [], echo := false }

/-! ## Leaving out what is observed -/

def Record.unobserved (record : Record) : Record :=
  { record with trace := {} }

def Progress.unobserved (progress : Progress) : Progress :=
  ⟨progress.machine.unechoed, progress.record.unobserved⟩

def Cycle.unobserved : Cycle → Cycle
  | .continued progress => .continued progress.unobserved
  | .ended ending progress => .ended ending progress.unobserved

def Report.unobserved (report : Report) : Report :=
  { report with machine := report.machine.unechoed, trace := {}, watchedAddresses := [] }

namespace Machine

theorem clearLastWrite_unechoed (machine : Machine) :
    machine.unechoed.clearLastWrite = machine.clearLastWrite.unechoed := by
  rcases machine with ⟨memory, registers, flags, halted, console?⟩
  cases console? <;> rfl

theorem withImage_unechoed (machine : Machine) (image : Image) :
    machine.unechoed.withImage image = (machine.withImage image).unechoed := by
  rw [withImage, withImage]
  cases image.isElf <;> rfl

theorem place_unechoed (options : Options) (machine : Machine) :
    Run.place options.unobserved machine.unechoed = (Run.place options machine).unechoed := by
  rcases options with ⟨memorySize, startAddress?⟩
  cases startAddress? <;> rfl

theorem freshMachine_unechoed (options : Options) (memory : Memory) :
    Run.freshMachine options.unobserved memory = (Run.freshMachine options memory).unechoed :=
  rfl

theorem output_unechoed (machine : Machine) : machine.unechoed.output = machine.output := by
  rcases machine with ⟨memory, registers, flags, halted, console?⟩
  cases console? <;> rfl

end Machine

/-! ## Runs -/

namespace Progress

variable {options : Options} {progress : Progress}

theorem Leads.unobserved {next : Cycle} (leads : Leads options progress next) :
    Leads options.unobserved progress.unobserved next.unobserved := by
  cases leads with
  | stopped reached => exact .stopped reached
  | unread passes outside => exact .unread passes outside
  | undecoded fetches refused => exact .undecoded ⟨fetches.passes, fetches.reads⟩ refused
  | @failed word instruction fault after fetches accepted executed =>
      have unechoed := Action.ignoresEcho_execute instruction progress.machine.clearLastWrite
      rw [executed, ← Machine.clearLastWrite_unechoed] at unechoed
      exact .failed ⟨fetches.passes, fetches.reads⟩ accepted unechoed
  | @completed word instruction after record fetches accepted executed recorded =>
      have unechoed := Action.ignoresEcho_execute instruction progress.machine.clearLastWrite
      rw [executed, ← Machine.clearLastWrite_unechoed] at unechoed
      rcases Record.complete_eq_ok_iff.mp recorded with ⟨trace, -, rfl⟩
      exact .completed ⟨fetches.passes, fetches.reads⟩ accepted unechoed
        (Record.complete_eq_ok_iff.mpr ⟨{}, rfl, rfl⟩)

/-- Leaving the observations out comes to the same before a run and after it. -/
theorem run_unobserved (options : Options) (limit : Nat) (progress : Progress) :
    progress.unobserved.run options.unobserved limit =
      (progress.run options limit).map fun (ending, last) => (ending, last.unobserved) := by
  induction limit generalizing progress with
  | zero =>
      cases stopped : progress.machine.halted with
      | true =>
          have unobserved : progress.unobserved.machine.halted = true := stopped
          rw [run_of_halted stopped, run_of_halted unobserved]
          rfl
      | false =>
          have unobserved : progress.unobserved.machine.halted = false := stopped
          by_cases fits : Numeral.FitsDecimal options.stepLimit
          · have fitsAgain : Numeral.FitsDecimal options.unobserved.stepLimit := fits
            rw [run_of_exhausted stopped fits, run_of_exhausted unobserved fitsAgain]
            rfl
          · have tooLong : ¬ Numeral.FitsDecimal options.unobserved.stepLimit := fits
            rw [run_of_unnamed stopped fits, run_of_unnamed unobserved tooLong]
            rfl
  | succ limit induction =>
      cases stopped : progress.machine.halted with
      | true =>
          have unobserved : progress.unobserved.machine.halted = true := stopped
          rw [run_of_halted stopped, run_of_halted unobserved]
          rfl
      | false =>
          have unobserved : progress.unobserved.machine.halted = false := stopped
          rcases cycle_leads options progress with ⟨next, -, leads⟩
          cases next with
          | continued next =>
              rw [run_of_continued stopped leads, run_of_continued unobserved leads.unobserved,
                induction]
          | ended ending last =>
              rw [run_of_ended stopped leads, run_of_ended unobserved leads.unobserved]
              rfl

end Progress

namespace Run

variable {options : Options} {image : Image}

/-- A run that is not observed has the same report with the observations left out. -/
theorem resume_unobserved (options : Options) (loaded : Image.Loaded) (machine : Machine) :
    resume options.unobserved loaded machine.unechoed =
      (resume options loaded machine).map Report.unobserved := by
  have ran := Progress.run_unobserved options options.stepLimit.toNat (.first machine)
  have first : (Progress.first machine).unobserved = .first machine.unechoed := rfl
  have sameLimit : options.unobserved.stepLimit = options.stepLimit := rfl
  rw [first, Progress.first, Progress.first] at ran
  rw [resume, resume]
  dsimp only
  rw [sameLimit, ran]
  cases Progress.run options options.stepLimit.toNat
      ⟨machine, { address := machine.programCounter }⟩ with
  | error misuse => rfl
  | ok result =>
      rcases result with ⟨ending, last⟩
      have told : outcomeOf ending last.unobserved.record = outcomeOf ending last.record := rfl
      simp only [Except.map, bind, Except.bind, told]
      cases outcomeOf ending last.record <;> rfl

theorem program_unobserved (image : Image) (positive : 0 < options.memorySize) :
    program image options.unobserved = (program image options).map Report.unobserved := by
  cases setup_cases image positive with
  | refused fault memory event kind abandons =>
      rw [(abandons options rfl rfl).2, (abandons options.unobserved rfl rfl).2]
      rfl
  | ready loaded memory starts =>
      rw [(starts options rfl rfl).2, (starts options.unobserved rfl rfl).2,
        Machine.freshMachine_unechoed, Machine.withImage_unechoed, Machine.place_unechoed,
        resume_unobserved]

end Run

/-! ## The copy of the output -/

/-- The machine has a console, which holds its output twice if a copy was asked for. -/
def Machine.Mirrors (machine : Machine) (echo : Bool) : Prop :=
  ∃ console, machine.console? = some console ∧
    console.copy? = if echo then some console.output else none

namespace Machine

variable {machine after : Machine} {echo : Bool}

theorem Mirrors.of_console (mirrors : machine.Mirrors echo)
    (same : after.console? = machine.console?) : after.Mirrors echo := by
  rcases mirrors with ⟨console, there, copied⟩
  exact ⟨console, same.trans there, copied⟩

theorem Mirrors.clearLastWrite (mirrors : machine.Mirrors echo) :
    machine.clearLastWrite.Mirrors echo := by
  rcases mirrors with ⟨console, there, copied⟩
  refine ⟨console.clearLast, ?_, copied⟩
  rw [Machine.clearLastWrite, there]
  rfl

/-- Text goes to the output and to its copy. -/
theorem Mirrors.of_written {text : String} (mirrors : machine.Mirrors echo)
    (written : after.console? = machine.console?.map (·.write text)) : after.Mirrors echo := by
  rcases mirrors with ⟨console, there, copied⟩
  rw [there] at written
  refine ⟨console.write text, written, ?_⟩
  rw [Console.write, copied]
  cases echo <;> rfl

end Machine

namespace Progress

variable {options : Options} {progress next last : Progress} {ending : Ending} {echo : Bool}

theorem Leads.mirrors_continued (leads : Leads options progress (.continued next))
    (mirrors : progress.machine.Mirrors echo) : next.machine.Mirrors echo := by
  cases leads with
  | completed fetches accepted executed recorded =>
      rcases Action.execute_console (Instruction.ofWord_wellFormed accepted) executed with
        same | ⟨-, bytes, -, written⟩
      · exact mirrors.clearLastWrite.of_console same
      · exact mirrors.clearLastWrite.of_written written

theorem Leads.mirrors_ended (leads : Leads options progress (.ended ending last))
    (mirrors : progress.machine.Mirrors echo) : last.machine.Mirrors echo := by
  cases leads with
  | stopped => exact mirrors
  | unread => exact mirrors
  | undecoded => exact mirrors
  | failed fetches accepted executed =>
      have same := (Action.execute_error_outward (Instruction.ofWord_wellFormed accepted)
        executed).1
      exact mirrors.clearLastWrite.of_console same.console

end Progress

theorem Report.echo_of_mirrors {report : Report} {echo : Bool}
    (mirrors : report.machine.Mirrors echo) :
    report.echo? = if echo then some report.output else none := by
  rcases mirrors with ⟨console, there, copied⟩
  rw [echo?, output, Machine.output, there]
  exact copied

namespace Run

variable {options : Options} {image : Image}

theorem resume_mirrors {loaded : Image.Loaded} {machine : Machine} {report : Report} {echo : Bool}
    (resumed : resume options loaded machine = .ok report) (mirrors : machine.Mirrors echo) :
    report.machine.Mirrors echo := by
  rcases resume_eq_ok_iff.mp resumed with ⟨ending, last, outcome, ran, -, rfl⟩
  have starts : (Progress.first machine).machine.Mirrors echo := mirrors
  exact Progress.holds_of_run (fun mirrors leads => leads.mirrors_continued mirrors)
    (fun mirrors leads => leads.mirrors_ended mirrors) starts ran

theorem mirrors_freshMachine (options : Options) (memory : Memory) :
    (freshMachine options memory).Mirrors options.echo := by
  refine ⟨_, rfl, ?_⟩
  cases options.echo <;> rfl

/-- What a run has copied of its output is all of it. -/
theorem program_mirrors {report : Report} (reported : program image options = .ok report) :
    report.machine.Mirrors options.echo := by
  cases setup_cases image (positive_of_program reported) with
  | refused fault memory event kind abandons =>
      rw [(abandons options rfl rfl).2] at reported
      cases reported
      exact mirrors_freshMachine options memory
  | ready loaded memory starts =>
      rw [(starts options rfl rfl).2] at reported
      exact resume_mirrors reported ((mirrors_freshMachine options memory).of_console
        (Machine.sameOutward_started options memory image).console)

end Run

/-! ## The rows of the trace -/

/-- The trace has the first rows of a fuller one, as many as its limit lets it have. -/
def Trace.Curtailed (limit : Int) (trace fuller : Trace) : Prop :=
  trace.rows.toList = fuller.rows.toList.take limit.toNat

/-- The same progress with another trace. -/
def Progress.withTrace (progress : Progress) (trace : Trace) : Progress :=
  { progress with record := { progress.record with trace } }

section

variable {options : Options} {larger : Int}

theorem Trace.Curtailed.extend {trace fuller next : Trace} {machine : Machine} {step : Nat}
    {address word : Word} {instruction : Instruction}
    (curtailed : trace.Curtailed options.traceLimit fuller)
    (ordered : options.traceLimit ≤ larger) (wellFormed : instruction.WellFormed)
    (extended : trace.extend options machine step address word instruction = .ok next) :
    ∃ fullerNext,
      fuller.extend { options with traceLimit := larger } machine step address word instruction =
        .ok fullerNext ∧
      next.Curtailed options.traceLimit fullerNext := by
  have count := congrArg List.length curtailed
  rw [List.length_take, Array.length_toList, Array.length_toList] at count
  cases Trace.extend_eq_ok_iff.mp extended with
  | untraced off => exact ⟨fuller, Trace.extend_eq_ok_iff.mpr (.untraced off), curtailed⟩
  | full on reached =>
      rcases fuller.extend_succeeds { options with traceLimit := larger } machine step address
        word wellFormed with ⟨fullerNext, fullerExtended⟩
      refine ⟨fullerNext, fullerExtended, ?_⟩
      cases Trace.extend_eq_ok_iff.mp fullerExtended with
      | untraced => exact curtailed
      | full => exact curtailed
      | added =>
          -- The limit cuts off the row that only the fuller trace has room for.
          rw [Trace.Curtailed, Array.toList_push, List.take_append_of_le_length ?_]
          · exact curtailed
          · rw [Array.length_toList]
            omega
  | added on room written =>
      -- Nothing has been cut off so far, and the fuller trace has room where this one has.
      have whole : trace.rows.toList = fuller.rows.toList := by
        rw [Trace.Curtailed, List.take_of_length_le ?_] at curtailed
        · exact curtailed
        · rw [Array.length_toList]
          omega
      have fullerRoom : ¬ larger ≤ fuller.rows.size := by omega
      refine ⟨_, Trace.extend_eq_ok_iff.mpr (.added on fullerRoom written), ?_⟩
      rw [Trace.Curtailed, Array.toList_push, Array.toList_push, whole, List.take_of_length_le ?_]
      · rfl
      · rw [List.length_append, Array.length_toList]
        change fuller.rows.size + 1 ≤ options.traceLimit.toNat
        omega

namespace Progress

variable {progress next last : Progress} {ending : Ending} {fuller : Trace}

theorem Leads.withTrace_continued (leads : Leads options progress (.continued next))
    (ordered : options.traceLimit ≤ larger)
    (curtailed : progress.record.trace.Curtailed options.traceLimit fuller) :
    ∃ fullerNext,
      Leads { options with traceLimit := larger } (progress.withTrace fuller)
        (.continued (next.withTrace fullerNext)) ∧
      next.record.trace.Curtailed options.traceLimit fullerNext := by
  cases leads with
  | completed fetches accepted executed recorded =>
      rcases Record.complete_eq_ok_iff.mp recorded with ⟨trace, extended, rfl⟩
      rcases curtailed.extend ordered (Instruction.ofWord_wellFormed accepted) extended with
        ⟨fullerNext, fullerExtended, nextCurtailed⟩
      refine ⟨fullerNext, .completed ⟨fetches.passes, fetches.reads⟩ accepted executed ?_,
        nextCurtailed⟩
      exact Record.complete_eq_ok_iff.mpr ⟨fullerNext, fullerExtended, rfl⟩

theorem Leads.withTrace_ended (leads : Leads options progress (.ended ending last))
    (larger : Int) (fuller : Trace) :
    Leads { options with traceLimit := larger } (progress.withTrace fuller)
      (.ended ending (last.withTrace fuller)) := by
  cases leads with
  | stopped reached => exact .stopped reached
  | unread passes outside => exact .unread passes outside
  | undecoded fetches refused => exact .undecoded ⟨fetches.passes, fetches.reads⟩ refused
  | failed fetches accepted executed =>
      exact .failed ⟨fetches.passes, fetches.reads⟩ accepted executed

theorem Leads.trace_ended (leads : Leads options progress (.ended ending last)) :
    last.record.trace = progress.record.trace := by
  cases leads <;> rfl

/-- A run with a larger limit for its trace makes the same progress with a fuller trace. -/
theorem run_withTrace {limit : Nat} (ordered : options.traceLimit ≤ larger)
    (curtailed : progress.record.trace.Curtailed options.traceLimit fuller)
    (ran : progress.run options limit = .ok (ending, last)) :
    ∃ fullerLast,
      (progress.withTrace fuller).run { options with traceLimit := larger } limit =
        .ok (ending, last.withTrace fullerLast) ∧
      last.record.trace.Curtailed options.traceLimit fullerLast := by
  have sameLimit : { options with traceLimit := larger }.stepLimit = options.stepLimit := rfl
  have alike : ∃ twin,
      (progress.withTrace fuller).run { options with traceLimit := larger } limit =
        .ok (ending, twin) ∧
      ∃ fullerLast, twin = last.withTrace fullerLast ∧
        last.record.trace.Curtailed options.traceLimit fullerLast := by
    refine run_alike (fun progress twin => ∃ fuller, twin = progress.withTrace fuller ∧
      progress.record.trace.Curtailed options.traceLimit fuller) sameLimit ?_ ?_ ?_
      ⟨fuller, rfl, curtailed⟩ ran
    · rintro progress twin ⟨fuller, rfl, -⟩
      rfl
    · rintro progress twin next ⟨fuller, rfl, curtailed⟩ leads
      rcases leads.withTrace_continued ordered curtailed with
        ⟨fullerNext, fullerLeads, nextCurtailed⟩
      exact ⟨_, fullerLeads, fullerNext, rfl, nextCurtailed⟩
    · rintro progress twin ending last ⟨fuller, rfl, curtailed⟩ leads
      refine ⟨_, leads.withTrace_ended larger fuller, fuller, rfl, ?_⟩
      rw [leads.trace_ended]
      exact curtailed
  rcases alike with ⟨twin, twinRan, fullerLast, rfl, lastCurtailed⟩
  exact ⟨fullerLast, twinRan, lastCurtailed⟩

end Progress

namespace Run

variable {image : Image} {report : Report}

theorem resume_withTrace {loaded : Image.Loaded} {machine : Machine}
    (ordered : options.traceLimit ≤ larger) (resumed : resume options loaded machine = .ok report) :
    ∃ fuller,
      resume { options with traceLimit := larger } loaded machine =
        .ok { report with trace := fuller } ∧
      report.trace.Curtailed options.traceLimit fuller := by
  rcases resume_eq_ok_iff.mp resumed with ⟨ending, last, outcome, ran, told, rfl⟩
  have starts : (Progress.first machine).record.trace.Curtailed options.traceLimit {} :=
    List.take_nil.symm
  rcases Progress.run_withTrace ordered starts ran with ⟨fuller, fullerRan, curtailed⟩
  exact ⟨fuller, resume_eq_ok_iff.mpr ⟨ending, last.withTrace fuller, outcome, fullerRan, told,
    rfl⟩, curtailed⟩

theorem program_withTrace (ordered : options.traceLimit ≤ larger)
    (reported : program image options = .ok report) :
    ∃ fuller,
      program image { options with traceLimit := larger } = .ok { report with trace := fuller } ∧
      report.trace.Curtailed options.traceLimit fuller := by
  cases setup_cases image (positive_of_program reported) with
  | refused fault memory event kind abandons =>
      rw [(abandons options rfl rfl).2] at reported
      cases reported
      exact ⟨{}, (abandons { options with traceLimit := larger } rfl rfl).2, List.take_nil.symm⟩
  | ready loaded memory starts =>
      rw [(starts options rfl rfl).2] at reported
      rw [(starts { options with traceLimit := larger } rfl rfl).2]
      exact resume_withTrace ordered reported

end Run

end

/-! ## What all runs have in common -/

/-- Two reports of the same execution: the same outcome with the same diagnostic, the same
output and count, the same final machine and the same listings of it. -/
structure Report.SameExecution (report other : Report) : Prop where
  outcome : other.outcome = report.outcome
  output : other.output = report.output
  steps : other.steps = report.steps
  memory : other.machine.memory = report.machine.memory
  registers : other.machine.registers = report.machine.registers
  flags : other.machine.flags = report.machine.flags
  halted : other.machine.halted = report.machine.halted
  registerListing : other.machine.registerListing = report.machine.registerListing
  flagsText : other.machine.flags.text = report.machine.flags.text

theorem Report.sameExecution_of_unobserved {report other : Report}
    (same : other.unobserved = report.unobserved) : report.SameExecution other := by
  have outcome := congrArg Report.outcome same
  have steps := congrArg Report.steps same
  have machine : other.machine.unechoed = report.machine.unechoed := congrArg Report.machine same
  have output := congrArg Machine.output machine
  rw [Machine.output_unechoed, Machine.output_unechoed] at output
  rcases Machine.mk.inj machine with ⟨memory, registers, flags, halted, -⟩
  refine ⟨outcome, output, steps, memory, registers, flags, halted, ?_, ?_⟩
  · rw [Machine.registerListing, registers]
    rfl
  · rw [flags]

/-- Observation does not disturb a run. Whatever is traced, watched and copied, it is the
same execution, a trace with a smaller limit begins one with a larger limit, and what is
copied of the output is the output. -/
theorem Run.program_observed (image : Image) (options : Options)
    (positive : 0 < options.memorySize) :
    Reports image options fun report =>
      (∀ trace watched traceRegisters traceLimit echo, ∃ observed,
        program image { options with trace, watched, traceRegisters, traceLimit, echo } =
          .ok observed ∧
        report.SameExecution observed) ∧
      (∀ larger, options.traceLimit ≤ larger → ∃ fuller,
        program image { options with traceLimit := larger } = .ok fuller ∧
        report.trace.rows.toList <+: fuller.trace.rows.toList) ∧
      report.echo? = if options.echo then some report.output else none := by
  refine reports_of_holds image positive fun report reported => ?_
  refine ⟨?_, ?_, Report.echo_of_mirrors (program_mirrors reported)⟩
  · intro trace watched traceRegisters traceLimit echo
    let other := { options with trace, watched, traceRegisters, traceLimit, echo }
    have otherPositive : 0 < other.memorySize := positive
    -- With the observations left out, the two sets of options are one.
    have same : program image other.unobserved = program image options.unobserved := rfl
    rw [program_unobserved image positive, program_unobserved image otherPositive, reported] at same
    cases observedReported : program image other with
    | error misuse =>
        rw [observedReported] at same
        cases same
    | ok observed =>
        rw [observedReported] at same
        exact ⟨observed, rfl, Report.sameExecution_of_unobserved (Except.ok.inj same)⟩
  · intro larger ordered
    rcases program_withTrace ordered reported with ⟨fuller, fullerReported, curtailed⟩
    refine ⟨_, fullerReported, ?_⟩
    rw [curtailed]
    exact List.take_prefix _ _

/-- A program that writes two letters, traced with its output copied and without either. -/
theorem Run.program_observed_write :
    let image : Image :=
      [4, 0x70, 0xA0, 0xE3, 1, 0, 0xA0, 0xE3, 0x14, 0x10, 0xA0, 0xE3, 0, 0, 0, 0xEF,
        0xFE, 0xFF, 0xFF, 0xEA, 0x48, 0x69, 0]
    let options : Options := { memorySize := 32, trace := true, traceLimit := 2, echo := true }
    ∃ report observed fuller, program image options = .ok report ∧
      program image { options with trace := false, watched := [20], echo := false } =
        .ok observed ∧
      report.SameExecution observed ∧
      program image { options with traceLimit := 5 } = .ok fuller ∧
      report.trace.rows.toList <+: fuller.trace.rows.toList ∧
      report.echo? = some report.output ∧ report.output = "Hi" := by
  intro image options
  have told : (program image options).toOption.map Report.output = some "Hi" := by decide +kernel
  have limit : Numeral.FitsDecimal options.stepLimit :=
    Numeral.fitsDecimal_of_word (by decide) (by decide)
  rcases (program_observed image options (by decide)).of_fits limit with
    ⟨report, reported, others, fullers, copied⟩
  rcases others false [20] true 2 false with ⟨observed, observedReported, same⟩
  rcases fullers 5 (by decide) with ⟨fuller, fullerReported, begins⟩
  rw [reported] at told
  exact ⟨report, observed, fuller, reported, observedReported, same, fullerReported, begins,
    copied, Option.some.inj told⟩

end Arm32
