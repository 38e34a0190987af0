import Arm32.Proofs.Decoding.Image
import Arm32.Proofs.Running.Observation
import Arm32.Proofs.Running.Outcomes

namespace Arm32

/-! The trace of a run. Row by row it shows the first steps of the run, each with the state
that it left, and it is cut off only where its limit is reached. What the rows show of the
output adds up to all of it. -/

/-- The text that the instruction of a step has written. -/
def Step.text? (step : Step) : Option String :=
  step.after.machine.console?.bind (·.last?)

/-- A row shows a step, which is the one of that number, and the state that it left. -/
structure TraceRow.Shows (row : TraceRow) (options : Options) (number : Nat) (step : Step) :
    Prop where
  number : row.step = number
  address : row.address = step.address
  instruction : ∃ instruction, step.Executes row.word instruction ∧
    instruction.text (some row.address.toInt) = .ok row.text
  flags : row.flags = step.after.machine.flags
  watched : row.watched = step.after.machine.memory.watch options.watched
  registers : row.registers? =
    if options.traceRegisters then some step.after.machine.registers else none
  text : row.output? = step.text?

/-- Registers that a row has are those that its step left. -/
theorem TraceRow.Shows.registers_eq {row : TraceRow} {options : Options} {number : Nat}
    {step : Step} {registers : Vector Word 16} (shows : row.Shows options number step)
    (included : row.registers? = some registers) : registers = step.after.machine.registers := by
  rw [shows.registers] at included
  split at included
  · exact (Option.some.inj included).symm
  · cases included

namespace Trace

variable {options : Options} {trace : Trace} {steps : List Step} {step : Step} {row : TraceRow}

/-- A trace of steps has a row for each of them, as long as its limit allows one. -/
structure Records (options : Options) (trace : Trace) (steps : List Step) : Prop where
  size : trace.rows.size = min steps.length options.traceLimit.toNat
  truncated_iff : trace.truncated = true ↔ options.traceLimit.toNat < steps.length
  shows : ∀ (index : Nat) (row : TraceRow) (step : Step), trace.rows[index]? = some row →
    steps[index]? = some step → row.Shows options (index + 1) step

theorem records_nil : Records options {} [] where
  size := (Nat.zero_min _).symm
  truncated_iff := by simp
  shows := by simp

/-- Every row shows one of the steps. -/
theorem Records.step_of_row {index : Nat} (records : Records options trace steps)
    (shown : trace.rows[index]? = some row) :
    ∃ step, steps[index]? = some step ∧ row.Shows options (index + 1) step := by
  have size := records.size
  rcases Array.getElem?_eq_some_iff.mp shown with ⟨inside, -⟩
  have taken := List.getElem?_eq_getElem (by omega : index < steps.length)
  exact ⟨_, taken, records.shows index row _ shown taken⟩

theorem Records.size_of_whole (records : Records options trace steps)
    (whole : trace.truncated = false) : trace.rows.size = steps.length := by
  have size := records.size
  have within : ¬ options.traceLimit.toNat < steps.length := by
    rw [← records.truncated_iff, whole]
    exact Bool.false_ne_true
  omega

/-- A trace from which nothing was left out shows all that was written. -/
theorem Records.texts (records : Records options trace steps) (whole : trace.truncated = false) :
    trace.rows.toList.filterMap (·.output?) = steps.filterMap Step.text? := by
  have full := records.size_of_whole whole
  have same : trace.rows.toList.map (·.output?) = steps.map Step.text? := by
    apply List.ext_getElem?
    intro index
    rw [List.getElem?_map, List.getElem?_map, Array.getElem?_toList]
    cases shown : trace.rows[index]? with
    | none =>
        have past := Array.getElem?_eq_none_iff.mp shown
        rw [List.getElem?_eq_none (by omega)]
        rfl
    | some row =>
        rcases records.step_of_row shown with ⟨step, taken, shows⟩
        rw [taken, Option.map_some, Option.map_some, shows.text]
  have joined := congrArg (List.filterMap id) same
  rwa [List.filterMap_map, List.filterMap_map] at joined

/-- A trace from which nothing was left out shows the last step last. -/
theorem Records.back (records : Records options trace steps) (whole : trace.truncated = false)
    (final : steps.getLast? = some step) :
    ∃ row, trace.rows.back? = some row ∧ row.Shows options steps.length step := by
  have full := records.size_of_whole whole
  rw [List.getLast?_eq_getElem?] at final
  rcases List.getElem?_eq_some_iff.mp final with ⟨inside, -⟩
  have shown := Array.getElem?_eq_getElem (by omega : steps.length - 1 < trace.rows.size)
  have shows := records.shows _ _ step shown final
  rw [Nat.sub_add_cancel (by omega)] at shows
  rw [Array.back?_eq_getElem?, full, shown]
  exact ⟨_, rfl, shows⟩

/-- A full trace leaves a step out. -/
theorem Records.skip (records : Records options trace steps)
    (reached : options.traceLimit ≤ trace.rows.size) :
    Records options { trace with truncated := true } (steps ++ [step]) := by
  have size := records.size
  have length : (steps ++ [step]).length = steps.length + 1 := List.length_append
  refine ⟨?size, ?truncated, ?shows⟩
  case size =>
    rw [length]
    dsimp only
    omega
  case truncated =>
    rw [length]
    exact iff_of_true rfl (by omega)
  case shows =>
    intro index row other shown taken
    rcases Array.getElem?_eq_some_iff.mp shown with ⟨inside, -⟩
    rw [List.getElem?_append_left (by dsimp only at inside; omega)] at taken
    exact records.shows index row other shown taken

theorem Records.push (records : Records options trace steps)
    (room : ¬ options.traceLimit ≤ trace.rows.size)
    (shows : row.Shows options (steps.length + 1) step) :
    Records options { trace with rows := trace.rows.push row } (steps ++ [step]) := by
  have size := records.size
  have length : (steps ++ [step]).length = steps.length + 1 := List.length_append
  have whole : trace.rows.size = steps.length := by omega
  refine ⟨?size, ?truncated, ?shows⟩
  case size =>
    rw [length, Array.size_push]
    omega
  case truncated =>
    rw [length]
    exact records.truncated_iff.trans (by omega)
  case shows =>
    intro index shown other found taken
    rw [Array.getElem?_push, whole] at found
    split at found
    case isTrue last =>
      subst last
      rw [List.getElem?_concat_length] at taken
      cases found
      cases taken
      exact shows
    case isFalse earlier =>
      rcases Array.getElem?_eq_some_iff.mp found with ⟨inside, -⟩
      rw [List.getElem?_append_left (by omega)] at taken
      exact records.shows index shown other found taken

end Trace

namespace Progress

variable {options : Options} {progress next middle last : Progress} {steps earlier : List Step}
  {ending : Ending} {count limit : Nat}

/-- What a run has recorded and written once it has taken steps. -/
structure Recorded (options : Options) (steps : List Step) (progress : Progress) : Prop where
  count : progress.record.steps = steps.length
  trace : progress.record.trace.Records options steps
  output : progress.machine.output = String.join (steps.filterMap Step.text?)

/-! ## Completed cycles -/

/-- A completed cycle either finds the trace full or adds the row of its step. -/
theorem Leads.trace_continued (leads : Leads options progress (.continued next))
    (tracing : options.trace = true) :
    (options.traceLimit ≤ progress.record.trace.rows.size ∧
        next.record.trace = { progress.record.trace with truncated := true }) ∨
      (¬ options.traceLimit ≤ progress.record.trace.rows.size ∧
        ∃ row : TraceRow, row.Shows options (progress.record.steps + 1) ⟨progress, next⟩ ∧
          next.record.trace =
            { progress.record.trace with rows := progress.record.trace.rows.push row }) := by
  cases leads with
  | @completed word instruction after record fetches accepted executed recorded =>
      rcases Record.complete_eq_ok_iff.mp recorded with ⟨trace, extended, rfl⟩
      cases Trace.extend_eq_ok_iff.mp extended with
      | untraced off => exact absurd (off.symm.trans tracing) Bool.false_ne_true
      | full on reached => exact .inl ⟨reached, rfl⟩
      | added on room written =>
          refine .inr ⟨room, _, ?_, rfl⟩
          exact {
            number := rfl
            address := rfl
            instruction := ⟨instruction, ⟨fetches.reads, accepted⟩, written⟩
            flags := rfl
            watched := rfl
            registers := rfl
            text := rfl }

/-- A completed cycle adds to the output what its step shows. -/
theorem Leads.output_continued (leads : Leads options progress (.continued next)) :
    next.machine.output =
      progress.machine.output ++ (Step.text? ⟨progress, next⟩).getD "" := by
  cases leads with
  | @completed word instruction after record fetches accepted executed recorded =>
      have cleared : progress.machine.clearLastWrite.console? =
          progress.machine.console?.map Console.clearLast := rfl
      simp only [Machine.output, Step.text?]
      rcases Action.execute_console (Instruction.ofWord_wellFormed accepted) executed with
        same | ⟨-, bytes, -, written⟩
      · -- The last write was forgotten before the instruction, and it has made none.
        rw [same, cleared]
        cases progress.machine.console? with
        | none => rfl
        | some console => exact String.append_empty.symm
      · rw [written, cleared]
        cases progress.machine.console? <;> rfl

theorem Recorded.continue (recorded : progress.Recorded options steps)
    (leads : Leads options progress (.continued next)) (tracing : options.trace = true) :
    next.Recorded options (steps ++ [⟨progress, next⟩]) where
  count := by
    rw [leads.steps_continued, recorded.count, List.length_append]
    rfl
  trace := by
    rcases leads.trace_continued tracing with ⟨reached, extended⟩ | ⟨room, row, shows, extended⟩
    · rw [extended]
      exact recorded.trace.skip reached
    · rw [recorded.count] at shows
      rw [extended]
      exact recorded.trace.push room shows
  output := by
    rw [leads.output_continued, recorded.output, List.filterMap_append, String.join_append]
    cases written : Step.text? ⟨progress, next⟩ <;> simp [written]

theorem Path.recorded (path : Path options progress steps middle) (tracing : options.trace = true)
    (recorded : progress.Recorded options earlier) :
    middle.Recorded options (earlier ++ steps) := by
  -- What is kept is that the record is one of all steps so far, not of those of the path alone.
  induction path generalizing earlier with
  | nil =>
      rw [List.append_nil]
      exact recorded
  | cons running leads rest induction =>
      rw [List.append_cons]
      exact induction (recorded.continue leads tracing)

/-! ## The end of a run -/

theorem Finishes.trace (finishes : Finishes options count limit progress ending last) :
    last.record.trace = progress.record.trace := by
  cases finishes with
  | halted => rfl
  | exhausted => rfl
  | ended running within leads => exact leads.trace_ended

theorem Finishes.output (finishes : Finishes options count limit progress ending last) :
    last.machine.output = progress.machine.output := by
  cases finishes with
  | halted => rfl
  | exhausted => rfl
  | ended running within leads => exact leads.output_ended

/-- However a run ends, the cycle that ends it records nothing. -/
theorem Recorded.finish (recorded : progress.Recorded options steps)
    (finishes : Finishes options count limit progress ending last) :
    last.Recorded options steps where
  count := finishes.steps.trans recorded.count
  trace := by
    rw [finishes.trace]
    exact recorded.trace
  output := finishes.output.trans recorded.output

/-! ## Neighbouring steps -/

theorem Path.head_before {step : Step} (path : Path options progress steps middle)
    (taken : steps[0]? = some step) : step.before = progress := by
  cases path with
  | nil => cases taken
  | cons running leads rest =>
      cases taken
      rfl

/-- A step starts where the one before it has led. -/
theorem Path.next_before {index : Nat} {step following : Step}
    (path : Path options progress steps middle) (taken : steps[index]? = some step)
    (follows : steps[index + 1]? = some following) : following.before = step.after := by
  induction path generalizing index with
  | nil => cases taken
  | cons running leads rest induction =>
      cases index with
      | zero =>
          cases taken
          exact rest.head_before follows
      | succ index => exact induction taken follows

end Progress

/-- How the trace of a report fits the rest of it and the machine that the run started with. -/
structure Report.Traced (report : Report) (options : Options) (start : Machine) : Prop where
  size : (report.trace.rows.size : Int) = min (report.steps : Int) (max 0 options.traceLimit)
  truncated_iff : report.trace.truncated = true ↔ max 0 options.traceLimit < report.steps
  numbered : ∀ (index : Nat) (row : TraceRow), report.trace.rows[index]? = some row →
    row.step = index + 1
  first : ∀ row : TraceRow, report.trace.rows[0]? = some row → row.address = start.programCounter
  text : ∀ (index : Nat) (row : TraceRow), report.trace.rows[index]? = some row →
    ∃ instruction, Instruction.decode row.word.toInt = .ok instruction ∧
      instruction.text (some row.address.toInt) = .ok row.text
  included : ∀ (index : Nat) (row : TraceRow), report.trace.rows[index]? = some row →
    row.registers?.isSome = options.traceRegisters
  /-- Each row leaves the program counter where the next one is. -/
  next : ∀ (index : Nat) (row following : TraceRow) (registers : Vector Word 16),
    report.trace.rows[index]? = some row → report.trace.rows[index + 1]? = some following →
      row.registers? = some registers →
        registers.get Register.programCounter = following.address
  /-- Unless an instruction has failed, the last row shows the machine as it stayed. -/
  last : report.trace.truncated = false → 0 < report.steps →
    report.outcome = .finished ∨ report.outcome = .interrupted ∨
        report.outcome.FailsBy .stepLimit →
      ∃ row, report.trace.rows.back? = some row ∧ row.flags = report.machine.flags ∧
        row.watched = report.watched ∧
        ∀ registers, row.registers? = some registers → registers = report.machine.registers
  output : report.trace.truncated = false →
    report.output = String.join (report.trace.rows.toList.filterMap (·.output?))

namespace Run

variable {options : Options} {machine : Machine} {steps : List Step} {middle last : Progress}
  {ending : Ending} {outcome : Outcome}

theorem Course.recorded (course : Course options machine steps middle ending last outcome)
    (tracing : options.trace = true) (silent : machine.output = "") :
    last.Recorded options steps := by
  have start : (Progress.first machine).Recorded options [] := ⟨rfl, Trace.records_nil, silent⟩
  exact (course.path.recorded tracing start).finish course.finishes

/-- A run that no instruction has failed leaves the machine where its last step did. -/
theorem Course.machine_eq (course : Course options machine steps middle ending last outcome)
    (unfailed : outcome = .finished ∨ outcome = .interrupted ∨ outcome.FailsBy .stepLimit) :
    last.machine = middle.machine := by
  have finishes := course.finishes
  rcases unfailed with rfl | rfl | exceeded
  · cases course.tells
    cases finishes with
    | halted => rfl
    | ended running within leads => cases leads
  · cases course.tells
    rw [finishes.of_breakpoint.2.2]
  · rcases (course.tells.failsBy_iff .stepLimit).mp exceeded with ⟨fault, rfl, kind⟩
    rw [(finishes.of_stepLimit kind).2.2]

/-- The last row of a trace with all rows shows the machine that the run has left. -/
theorem Course.last_row (course : Course options machine steps middle ending last outcome)
    (records : last.record.trace.Records options steps)
    (whole : last.record.trace.truncated = false) (taken : 0 < steps.length)
    (unfailed : outcome = .finished ∨ outcome = .interrupted ∨ outcome.FailsBy .stepLimit) :
    ∃ row, last.record.trace.rows.back? = some row ∧ row.flags = last.machine.flags ∧
      row.watched = last.machine.memory.watch options.watched ∧
      ∀ registers, row.registers? = some registers → registers = last.machine.registers := by
  rcases course.path.last_step with ⟨rfl, -⟩ | ⟨step, final, reached⟩
  · cases taken
  · rcases records.back whole final with ⟨row, there, shows⟩
    rw [course.machine_eq unfailed, ← reached]
    exact ⟨row, there, shows.flags, shows.watched, fun _ => shows.registers_eq⟩

theorem Course.traced (course : Course options machine steps middle ending last outcome)
    (tracing : options.trace = true) (silent : machine.output = "") (loaded : Image.Loaded) :
    (concluded options loaded machine.programCounter outcome last).Traced options machine := by
  have recorded := course.recorded tracing silent
  have records := recorded.trace
  have size := records.size
  have count := recorded.count
  refine {
    size := by simp only [concluded]; omega
    truncated_iff := records.truncated_iff.trans (by simp only [concluded]; omega)
    numbered := ?numbered
    first := ?first
    text := ?text
    included := ?included
    next := ?next
    last := ?last
    output := ?output }
  case numbered =>
    intro index row shown
    rcases records.step_of_row shown with ⟨step, -, shows⟩
    exact shows.number
  case first =>
    intro row shown
    rcases records.step_of_row shown with ⟨step, taken, shows⟩
    rw [shows.address, Step.address, course.path.head_before taken]
    rfl
  case text =>
    intro index row shown
    rcases records.step_of_row shown with ⟨step, -, shows⟩
    rcases shows.instruction with ⟨instruction, executes, written⟩
    exact ⟨instruction, Instruction.decode_toInt_eq_ok_iff.mpr executes.2, written⟩
  case included =>
    intro index row shown
    rcases records.step_of_row shown with ⟨step, -, shows⟩
    rw [shows.registers]
    cases options.traceRegisters <;> rfl
  case next =>
    intro index row following registers shown shownNext included
    rcases records.step_of_row shown with ⟨step, taken, shows⟩
    rcases records.step_of_row shownNext with ⟨nextStep, follows, nextShows⟩
    rw [shows.registers_eq included, nextShows.address, Step.address,
      course.path.next_before taken follows]
    rfl
  case last =>
    intro whole positive unfailed
    exact course.last_row records whole (count ▸ positive) unfailed
  case output =>
    intro whole
    exact recorded.output.trans (congrArg String.join (records.texts whole).symm)

/-- The trace is a faithful record of the run, without a gap: it shows the steps of the run
one by one, each row leads to the next one, and what it shows of the machine and the output
is what the report says of them. -/
theorem program_traced {image : Image} (positive : 0 < options.memorySize)
    (tracing : options.trace = true) (started : start? image options = some machine) :
    Reports image options fun report => report.Traced options machine ∧
      report.steps = (history image options).length ∧
      report.trace.Records options (history image options) := by
  refine reports_of_holds image positive fun report reported => ?_
  cases setup_cases image positive with
  | refused fault memory event kind abandons =>
      rw [(abandons options rfl rfl).1] at started
      cases started
  | ready loaded memory starts =>
      rcases starts options rfl rfl with ⟨startedAgain, resumes⟩
      cases started.symm.trans startedAgain
      rcases course_of_resume (resumes.symm.trans reported) with
        ⟨steps, middle, ending, last, outcome, course, rfl⟩
      have silent : (place options ((freshMachine options memory).withImage image)).output = "" :=
        Machine.output_of_console (Machine.sameOutward_started options memory image).console
      rw [course.history_eq started]
      exact ⟨course.traced tracing silent loaded, course.steps_eq,
        (course.recorded tracing silent).trace⟩

/-- A program that writes two letters before it stops, in a trace with room for all of it. -/
theorem program_traced_write :
    let image : Image :=
      [4, 0x70, 0xA0, 0xE3, 1, 0, 0xA0, 0xE3, 0x14, 0x10, 0xA0, 0xE3, 0, 0, 0, 0xEF,
        0xFE, 0xFF, 0xFF, 0xEA, 0x48, 0x69, 0]
    let options : Options := { memorySize := 32, trace := true, traceLimit := 5 }
    ∃ machine report, start? image options = some machine ∧ program image options = .ok report ∧
      report.Traced options machine ∧ report.steps = 5 ∧ report.trace.truncated = false ∧
      report.output = "Hi" := by
  intro image options
  have begins : (start? image options).isSome = true := by decide +kernel
  have told : (program image options).toOption.map
      (fun report => (report.steps, report.output)) = some (5, "Hi") := by decide +kernel
  rcases Option.isSome_iff_exists.mp begins with ⟨machine, started⟩
  have limit : Numeral.FitsDecimal options.stepLimit :=
    Numeral.fitsDecimal_of_word (by decide) (by decide)
  rcases (program_traced (by decide) rfl started).of_fits limit with
    ⟨report, reported, traced, -, -⟩
  rw [reported] at told
  rcases Prod.mk.inj (Option.some.inj told) with ⟨steps, output⟩
  have whole : report.trace.truncated = false := by
    rw [← Bool.not_eq_true, traced.truncated_iff, steps]
    decide
  exact ⟨machine, report, started, reported, traced, steps, whole, output⟩

end Run

end Arm32
