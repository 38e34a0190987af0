import Arm32.Proofs.Execution.Writing
import Arm32.Proofs.Running.Tracing

namespace Arm32

/-! What programs write. A write call puts the string on the console that stands in memory
when the call is made. As no string holds a zero byte, no output does, whatever the program
has made of its memory before. -/

open SystemCall (Writable)

namespace Progress

variable {options : Options} {progress next : Progress}

/-- A completed cycle adds nothing to the output but a string. -/
theorem Leads.writable_continued (leads : Leads options progress (.continued next))
    (writable : Writable progress.machine.output) : Writable next.machine.output := by
  cases leads with
  | @completed word instruction after record fetches accepted executed recorded =>
      change Writable after.output
      rw [← progress.machine.output_clearLastWrite] at writable
      rcases Action.execute_console (Instruction.ofWord_wellFormed accepted) executed with
        same | ⟨address, bytes, found, written⟩
      · rw [Machine.output_of_console same]
        exact writable
      · rcases Machine.output_of_written written with ⟨rest, added, extended⟩
        have string : Writable rest := by
          rcases added with rfl | rfl
          · exact SystemCall.writable_empty
          · exact SystemCall.writable_textOf fun byte => Memory.ne_zero_of_mem_readString found
        rw [extended]
        exact writable.append string

end Progress

namespace Run

variable {options : Options} {machine : Machine} {steps : List Step} {middle last : Progress}
  {ending : Ending} {outcome : Outcome}

theorem Course.writable (course : Course options machine steps middle ending last outcome)
    (silent : machine.output = "") : Writable last.machine.output := by
  have starts : Writable (Progress.first machine).machine.output := by
    rw [Progress.first, silent]
    exact SystemCall.writable_empty
  rw [course.finishes.output]
  exact course.path.keeps (fun writable leads => leads.writable_continued writable) starts

/-- A report of a run holds only what strings in memory can spell. -/
theorem program_writable {image : Image} {report : Report}
    (reported : program image options = .ok report) : Writable report.output := by
  cases setup_cases image (positive_of_program reported) with
  | refused fault memory event kind abandons =>
      cases reported.symm.trans (abandons options rfl rfl).2
      exact SystemCall.writable_empty
  | ready loaded memory starts =>
      rcases course_of_resume ((starts options rfl rfl).2.symm.trans reported) with
        ⟨steps, middle, ending, last, outcome, course, rfl⟩
      have silent : (place options ((freshMachine options memory).withImage image)).output = "" :=
        Machine.output_of_console (Machine.sameOutward_started options memory image).console
      exact course.writable silent

/-- The write call puts exactly the string in memory on the console, up to the first zero
byte, and changes nothing else; where no zero byte follows, it fails and changes nothing at
all. So the output of a run never holds a zero or a character beyond a byte. -/
theorem program_writes_strings :
    (∀ (machine : Machine) (console : Console),
      machine.registers.get Register.callNumber = 4 → machine.registers.get 0 = 1 →
      machine.console? = some console →
      let first := (machine.registers.get 1).toNat
      let terminated := ∃ index, first ≤ index ∧ index < machine.memory.size ∧
        machine.memory.byteAt index = 0
      (terminated → ∃ (stop : Nat) (text : String),
        machine.memory.StringEnds first stop ∧
        text.toList.map Char.toNat =
          (machine.memory.slice first (stop - first)).map UInt8.toNat ∧
        Action.systemCall.run machine = .ok ()
          { machine with
            console? := some
              { output := console.output ++ text
                last? := some text
                copy? := console.copy?.map (· ++ text) } }) ∧
      (¬ terminated → ∃ fault, fault.kind = .memoryAccess ∧
        Action.systemCall.run machine = .error (.fault fault) machine)) ∧
    ∀ (image : Image) (options : Options), 0 < options.memorySize →
      Reports image options fun report =>
        ∀ character ∈ report.output.toList, 1 ≤ character.toNat ∧ character.toNat ≤ 0xFF := by
  constructor
  · intro machine console number descriptor attached first terminated
    rcases Action.systemCall_writes number descriptor attached with ⟨writes, fails⟩
    refine ⟨?_, fails⟩
    rintro ⟨index, above, inside, zero⟩
    rcases Memory.exists_stringEnds above inside zero with ⟨stop, ends⟩
    rcases writes stop ends with ⟨text, spelled, ran⟩
    exact ⟨stop, text, ends, spelled, ran⟩
  · intro image options positive
    exact reports_of_holds image positive fun report reported => program_writable reported

/-- A program that writes a string, puts a byte over its first letter and writes it again;
and a call for the empty string in the last byte of memory. -/
theorem program_writes_strings_overwritten :
    let image : Image :=
      [4, 0x70, 0xA0, 0xE3, 1, 0, 0xA0, 0xE3, 0x1C, 0x10, 0xA0, 0xE3, 0, 0, 0, 0xEF,
        0, 0, 0xC1, 0xE5, 0, 0, 0, 0xEF, 0xFE, 0xFF, 0xFF, 0xEA, 0x48, 0x69, 0]
    let options : Options := { memorySize := 32 }
    let machine : Machine :=
      { memory := .zeros 8
        registers :=
          (((Vector.replicate 16 0).setIfInBounds 0 1).setIfInBounds 1 7).setIfInBounds 7 4
        console? := some {} }
    (∃ report, program image options = .ok report ∧ report.output = "Hi\x01i" ∧
        ∀ character ∈ report.output.toList, 1 ≤ character.toNat ∧ character.toNat ≤ 0xFF) ∧
      ∃ after, Action.systemCall.run machine = .ok () after ∧
        after.console? = some { output := "", last? := some "" } := by
  intro image options machine
  rcases program_writes_strings with ⟨calls, programs⟩
  constructor
  · have told : (program image options).toOption.map (·.output) = some "Hi\x01i" := by
      decide +kernel
    have limit : Numeral.FitsDecimal options.stepLimit :=
      Numeral.fitsDecimal_of_word (by decide) (by decide)
    rcases (programs image options (by decide)).of_fits limit with ⟨report, reported, writable⟩
    rw [reported] at told
    exact ⟨report, reported, Option.some.inj told, writable⟩
  · rcases calls machine {} rfl rfl rfl with ⟨writes, -⟩
    rcases writes ⟨7, by decide, by decide, Memory.byteAt_zeros 8 7⟩ with
      ⟨stop, text, ends, spelled, ran⟩
    have after : 7 ≤ stop := ends.after
    have inside : stop < 8 := ends.inside
    have last : stop = 7 := by omega
    subst last
    have empty : text = "" := String.toList_eq_nil_iff.mp (List.map_eq_nil_iff.mp spelled)
    subst empty
    exact ⟨_, ran, rfl⟩

end Run

end Arm32
