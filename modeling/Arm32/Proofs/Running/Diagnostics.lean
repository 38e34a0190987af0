import Arm32.Proofs.Decoding.Image
import Arm32.Proofs.Execution.Transfers
import Arm32.Proofs.Running.Completion
import Arm32.Proofs.Running.Outcomes
import Arm32.Proofs.Running.Stops
import Mathlib.Logic.ExistsUnique

namespace Arm32

/-! The diagnostic of a failed run. It is put together from what the record of the run
holds at its end. The record is cleared when the run turns to an instruction and filled in
as the word is fetched and decoded, so it tells how far the instruction got. -/

/-- The diagnostic shows the last one of the executed instructions, and the start of the
run if there is none. -/
def Diagnostic.ShowsLast (diagnostic : Diagnostic) (steps : List Step) (start : Machine) : Prop :=
  match steps.getLast? with
  | none =>
      diagnostic.address = start.programCounter.toInt ∧ diagnostic.word? = none ∧
        diagnostic.instructionText? = none
  | some step =>
      diagnostic.address = step.address.toInt ∧
        ∃ word instruction text, step.Executes word instruction ∧
          diagnostic.word? = some word.toInt ∧
          instruction.text (some step.address.toInt) = .ok text ∧
          diagnostic.instructionText? = some text

/-- The parts of a cycle that can fail. -/
inductive Phase where
  | fetch
  | decoding
  | execution
deriving DecidableEq, Repr

/-- The word at an address, if memory has all of it. -/
def Memory.HoldsWord (memory : Memory) (address : Int) (word : Word) : Prop :=
  memory.Contains address 4 ∧ memory.wordAt address.toNat = word

/-- What the diagnostic of a run tells that has failed at the instruction at its address,
by the part of the last cycle that has failed. That cycle began on the machine `before`. -/
inductive Report.FailedIn (report : Report) (diagnostic : Diagnostic) (before : Machine) :
    Phase → Prop where
  | fetch (kind : diagnostic.kind = .memoryAccess) (word : diagnostic.word? = none)
      (text : diagnostic.instructionText? = none)
      (outside : report.machine.memory.size < diagnostic.address + 4)
      (counter : report.machine.programCounter.toInt = diagnostic.address) :
      FailedIn report diagnostic before .fetch
  | decoding {word : Word} {fault : Fault} (kind : diagnostic.kind = .decoding)
      (held : report.machine.memory.HoldsWord diagnostic.address word)
      (shown : diagnostic.word? = some word.toInt)
      (refused : Instruction.decode word.toInt = .error (.fault fault))
      (message : diagnostic.message = fault.message)
      (text : diagnostic.instructionText? = none)
      (counter : report.machine.programCounter.toInt = diagnostic.address) :
      FailedIn report diagnostic before .decoding
  | execution {word : Word} {instruction : Instruction} {fault : Fault} {text : String}
      (kind : diagnostic.kind = .memoryAccess ∨ diagnostic.kind = .unimplemented ∨
        diagnostic.kind = .systemCall)
      (held : before.memory.HoldsWord diagnostic.address word)
      (shown : diagnostic.word? = some word.toInt)
      (accepted : Instruction.decode word.toInt = .ok instruction)
      (failed : (Action.execute instruction).run before.clearLastWrite =
        .error (.fault fault) report.machine)
      (message : diagnostic.message = fault.message)
      (written : instruction.text (some diagnostic.address) = .ok text)
      (told : diagnostic.instructionText? = some text)
      (counter : report.machine.programCounter = Word.ofInt (diagnostic.address + 4)) :
      FailedIn report diagnostic before .execution

/-- The word and the text of a diagnostic say which part of the cycle has failed. -/
theorem Report.FailedIn.unique {report : Report} {diagnostic : Diagnostic} {before : Machine}
    {phase other : Phase} (failed : report.FailedIn diagnostic before phase)
    (again : report.FailedIn diagnostic before other) : other = phase := by
  cases failed <;> cases again <;> simp_all

theorem FaultKind.of_arisesInExecution {kind : FaultKind}
    (arises : kind.arisesInExecution = true) :
    kind = .memoryAccess ∨ kind = .unimplemented ∨ kind = .systemCall := by
  cases kind <;> simp_all [arisesInExecution]

theorem Memory.holdsWord_of_read {memory : Memory} {address : Int} {value : Nat}
    (reads : memory.read address 4 = .ok value) :
    memory.HoldsWord address (Word.ofInt value) := by
  rw [read] at reads
  split at reads
  case isTrue inside =>
    cases reads
    exact ⟨inside, (memory.ofInt_valueAt_four address.toNat).symm⟩
  case isFalse => cases reads

/-! ## Cycles -/

namespace Progress

variable {options : Options} {progress next last : Progress}

/-- After a completed cycle the record still holds the instruction of its step. -/
theorem Leads.record_continued (leads : Leads options progress (.continued next)) :
    next.record.address = progress.machine.programCounter ∧
      ∃ word instruction, Step.Executes ⟨progress, next⟩ word instruction ∧
        next.record.word? = some word ∧ next.record.instruction? = some instruction := by
  cases leads with
  | @completed word instruction after record fetches accepted executed recorded =>
      rcases Record.complete_eq_ok_iff.mp recorded with ⟨trace, -, rfl⟩
      exact ⟨rfl, word, instruction, ⟨fetches.reads, accepted⟩, rfl, rfl⟩

/-- The cycle that ends a failed run, told by the diagnostic that its record makes. -/
theorem Leads.failedIn {fault : Fault} {diagnostic : Diagnostic} {report : Report}
    (leads : Leads options progress (.ended (.failed fault) last))
    (locates : diagnostic.Locates fault last.record) (left : report.machine = last.machine) :
    diagnostic.address = progress.machine.programCounter.toInt ∧
      ∃ phase, report.FailedIn diagnostic progress.machine phase := by
  have word := locates.word
  cases leads with
  | unread passes outside =>
      have address : diagnostic.address = progress.machine.programCounter.toInt := locates.address
      have kind := locates.kind.trans (Memory.read_error_kind outside)
      rw [Memory.read] at outside
      split at outside
      case isTrue => cases outside
      case isFalse missing =>
        cases outside
        refine ⟨address, .fetch, .fetch kind word (locates.untold rfl) ?_ ?_⟩
        · rw [left, address]
          rw [Memory.contains_toInt_iff] at missing
          simp only [Word.toInt]
          omega
        · rw [left, address]
  | @undecoded fetchedWord fault fetches refused =>
      have address : diagnostic.address = progress.machine.programCounter.toInt := locates.address
      rcases Instruction.ofWord_refuses refused with ⟨kind, named⟩
      rcases fetches.reads with ⟨value, reads, rfl⟩
      rw [named] at word
      refine ⟨address, .decoding, .decoding (locates.kind.trans kind) ?_ word
        (by rw [Instruction.decode_toInt, refused]; rfl) locates.message (locates.untold rfl) ?_⟩
      · rw [left, address]
        exact Memory.holdsWord_of_read reads
      · rw [left, address]
  | @failed fetchedWord instruction fault after fetches accepted executed =>
      have address : diagnostic.address = progress.machine.programCounter.toInt := locates.address
      have wellFormed := Instruction.ofWord_wellFormed accepted
      have arises := (Action.execute_error_outward wellFormed executed).2
      have counter := Action.execute_error_counter wellFormed executed
      rcases fetches.reads with ⟨value, reads, rfl⟩
      rcases locates.told instruction rfl with ⟨text, written, told⟩
      -- The word is that of the record: executing an instruction refuses no word.
      have other : fault.kind ≠ .decoding := by
        intro decoding
        rw [decoding] at arises
        cases arises
      rw [Option.not_isSome_iff_eq_none.mp (mt fault.kind_of_word other)] at word
      refine ⟨address, .execution, .execution ?_ ?_ word
        (Instruction.decode_toInt_eq_ok_iff.mpr accepted) ?_ locates.message ?_ told ?_⟩
      · rw [locates.kind]
        exact FaultKind.of_arisesInExecution arises
      · rw [address]
        exact Memory.holdsWord_of_read reads
      · rw [left]
        exact executed
      · rw [address]
        exact written
      · rw [left, address, Word.ofInt_toInt_add_four]
        exact counter

end Progress

/-! ## Runs -/

namespace Run

variable {image : Image} {options : Options} {machine : Machine} {steps : List Step}
  {middle last : Progress} {ending : Ending} {diagnostic : Diagnostic}

/-- The machine as the steps of a run have left it. The last cycle of the run begins on it. -/
def reached (image : Image) (options : Options) (start : Machine) : Machine :=
  ((history image options).getLast?.map (·.after.machine)).getD start

/-- A run that exceeds its limit shows where its last step was. -/
theorem Course.showsLast {fault : Fault}
    (course : Course options machine steps middle (.failed fault) last (.failed diagnostic))
    (exceeded : fault.kind = .stepLimit) : diagnostic.ShowsLast steps machine := by
  rcases course.finishes.of_stepLimit exceeded with ⟨-, -, rfl⟩
  have other : fault.kind ≠ .decoding := by
    rw [exceeded]
    decide
  cases course.tells with
  | failed located =>
      have locates := locates_of_locate located
      have word := locates.word
      rw [Option.not_isSome_iff_eq_none.mp (mt fault.kind_of_word other)] at word
      rcases course.path.last_step with ⟨rfl, rfl⟩ | ⟨step, final, rfl⟩
      · exact ⟨locates.address, word, locates.untold rfl⟩
      · have leads := (course.path.of_mem (List.mem_of_getLast? final)).2
        rcases leads.record_continued with ⟨address, known, instruction, executes, held, decoded⟩
        rcases locates.told instruction decoded with ⟨text, written, told⟩
        rw [Diagnostic.ShowsLast, final]
        rw [address] at written
        refine ⟨locates.address.trans (congrArg Word.toInt address), known, instruction, text,
          executes, ?_, written, told⟩
        rw [word, held]
        rfl

/-- The steps of a course lead to where its last cycle begins. -/
theorem Course.reached_eq {outcome : Outcome}
    (course : Course options machine steps middle ending last outcome)
    (started : start? image options = some machine) :
    reached image options machine = middle.machine := by
  rw [reached, course.history_eq started]
  rcases course.path.last_step with ⟨rfl, rfl⟩ | ⟨step, final, rfl⟩
  · rfl
  · rw [final]
    rfl

/-- A run that gets past its setup has a course, which its report tells. -/
theorem program_course {report : Report} (started : start? image options = some machine)
    (reported : program image options = .ok report) :
    ∃ loaded steps middle ending last outcome,
      Course options machine steps middle ending last outcome ∧
        report = concluded options loaded machine.programCounter outcome last := by
  cases setup_cases image (positive_of_program reported) with
  | refused fault memory event kind abandons =>
      rw [(abandons options rfl rfl).1] at started
      cases started
  | ready loaded memory starts =>
      rcases starts options rfl rfl with ⟨startedAgain, resumes⟩
      cases started.symm.trans startedAgain
      exact ⟨loaded, course_of_resume (resumes.symm.trans reported)⟩

/-- A run that fails otherwise shows the instruction at which it has failed. -/
theorem Course.failedIn {fault : Fault}
    (course : Course options machine steps middle (.failed fault) last (.failed diagnostic))
    (within : fault.kind ≠ .stepLimit) {report : Report} (left : report.machine = last.machine) :
    diagnostic.address = middle.machine.programCounter.toInt ∧
      ∃ phase, report.FailedIn diagnostic middle.machine phase := by
  cases course.tells with
  | failed located =>
      cases course.finishes with
      | exhausted => exact absurd rfl within
      | ended running bounded leads => exact leads.failedIn (locates_of_locate located) left

/-- The diagnostic of a failed run tells where the run stood. One that has exceeded its
limit shows the last executed instruction. Any other one shows the instruction at which the
run has failed, and exactly one part of its cycle that can have failed. -/
theorem program_diagnosed {report : Report} (started : start? image options = some machine)
    (reported : program image options = .ok report) (failed : report.outcome.status = "error") :
    ∃ diagnostic, report.outcome = .failed diagnostic ∧
      diagnostic.step = report.steps ∧ report.steps = (history image options).length ∧
      (diagnostic.kind = .stepLimit →
        diagnostic.ShowsLast (history image options) machine) ∧
      (diagnostic.kind ≠ .stepLimit →
        diagnostic.address = (reached image options machine).programCounter.toInt ∧
          ∃! phase, report.FailedIn diagnostic (reached image options machine) phase) := by
  rcases program_course started reported with
    ⟨loaded, steps, middle, ending, last, outcome, course, rfl⟩
  rw [course.history_eq started, course.reached_eq started]
  have told := course.tells
  cases told with
  | finished => simp [concluded, Outcome.status] at failed
  | interrupted => simp [concluded, Outcome.status] at failed
  | @failed fault diagnostic located =>
      have locates := locates_of_locate located
      have left : (concluded options loaded machine.programCounter (.failed diagnostic)
        last).machine = last.machine := rfl
      refine ⟨diagnostic, rfl, locates.step, course.steps_eq, fun exceeded => ?_, fun within => ?_⟩
      · exact course.showsLast (locates.kind.symm.trans exceeded)
      · rcases course.failedIn (locates.kind ▸ within) left with ⟨address, phase, failedIn⟩
        exact ⟨address, phase, failedIn, fun other again => failedIn.unique again⟩

/-- A program that loads from past the end of memory with its second instruction. -/
theorem program_diagnosed_load :
    let image : Image := [1, 0x16, 0xA0, 0xE3, 0, 0, 0x91, 0xE5]
    let options : Options := { memorySize := 16 }
    ∃ machine report diagnostic, start? image options = some machine ∧
      program image options = .ok report ∧ report.outcome = .failed diagnostic ∧
      diagnostic.step = 1 ∧ diagnostic.address = 4 ∧ diagnostic.word? = some 0xE5910000 ∧
      diagnostic.instructionText? = some "LDR r0, [r1]" ∧
      report.FailedIn diagnostic (reached image options machine) .execution := by
  intro image options
  have begins : (start? image options).isSome = true := by decide +kernel
  have told : (program image options).toOption.bind (fun report => report.outcome.diagnostic?) =
      some ⟨.memoryAccess, "Memory address out of range: 0x00100000 (width 4, size 0x10)", 1, 4,
        some 0xE5910000, some "LDR r0, [r1]"⟩ := by decide +kernel
  rcases Option.isSome_iff_exists.mp begins with ⟨machine, started⟩
  have limit : Numeral.FitsDecimal options.stepLimit :=
    Numeral.fitsDecimal_of_word (by decide) (by decide)
  rcases (program_eq_ok_iff image options).mpr ⟨by decide, .inl limit⟩ with ⟨report, reported⟩
  rw [reported] at told
  have failed : report.outcome.status = "error" := by
    cases ended : report.outcome with
    | failed => rfl
    | _ => simp [Except.toOption, ended, Outcome.diagnostic?] at told
  rcases program_diagnosed started reported failed with ⟨diagnostic, outcome, -, -, -, otherwise⟩
  have shown : diagnostic = ⟨.memoryAccess,
      "Memory address out of range: 0x00100000 (width 4, size 0x10)", 1, 4,
      some 0xE5910000, some "LDR r0, [r1]"⟩ := by
    simpa [Except.toOption, outcome, Outcome.diagnostic?] using told
  subst shown
  rcases otherwise (by decide) with ⟨-, phase, failedIn, -⟩
  have executed : phase = .execution := by
    cases failedIn with
    | fetch kind word => cases word
    | decoding kind => cases kind
    | execution => rfl
  exact ⟨machine, report, _, started, reported, outcome, rfl, rfl, rfl, rfl, executed ▸ failedIn⟩

end Run

end Arm32
