import Arm32.Proofs.Decoding.WellFormed
import Arm32.Proofs.Execution.Effects

namespace Arm32

/-! Failing instructions. A decoded instruction that fails has moved the program
counter on and done nothing else. The one exception is a store of a double word
whose first word still lies in memory and whose second one does not: the first
word stays written. -/

namespace Machine

/-- Two machines that agree on everything but the program counter. -/
structure SameButCounter (before after : Machine) : Prop where
  registers : ∀ register, register ≠ Register.programCounter →
    after.registers.get register = before.registers.get register
  flags : after.flags = before.flags
  halted : after.halted = before.halted
  memory : after.memory = before.memory
  console : after.console? = before.console?

theorem programCounter_advance (machine : Machine) :
    machine.advance.programCounter = machine.programCounter + 4 :=
  machine.setProgramCounter_same _

@[simp] theorem advance_memory (machine : Machine) : machine.advance.memory = machine.memory := rfl

theorem SameButCounter.refl (machine : Machine) : machine.SameButCounter machine :=
  ⟨fun _ _ => rfl, rfl, rfl, rfl, rfl⟩

theorem SameButCounter.trans {before between after : Machine}
    (first : before.SameButCounter between) (second : between.SameButCounter after) :
    before.SameButCounter after where
  registers := fun register different =>
    (second.registers register different).trans (first.registers register different)
  flags := second.flags.trans first.flags
  halted := second.halted.trans first.halted
  memory := second.memory.trans first.memory
  console := second.console.trans first.console

theorem sameButCounter_setProgramCounter (machine : Machine) (value : Word) :
    machine.SameButCounter (machine.setProgramCounter value) where
  registers := fun _ different => machine.setRegister_other _ _ _ different
  flags := rfl
  halted := rfl
  memory := rfl
  console := rfl

theorem sameButCounter_advance (machine : Machine) : machine.SameButCounter machine.advance :=
  machine.sameButCounter_setProgramCounter _

/-- A store on the way shows nowhere but in memory. -/
theorem sameButCounter_withStored (machine : Machine) (address : Int) (width : Nat) (value : Word) :
    machine.SameButCounter (machine.advance.withStored address width value) ↔
      (machine.advance.withStored address width value).memory = machine.memory := by
  constructor
  · intro same
    exact same.memory
  · intro unchanged
    exact ⟨machine.sameButCounter_advance.registers, rfl, rfl, unchanged, rfl⟩

end Machine

namespace Action

variable {machine after : Machine} {failure : Failure}

/-! ## Operations -/

/-- An outcome that is a success, or a fault that left the machine as it was. -/
def FailsCleanly (machine : Machine) : EStateM.Result Failure Machine Unit → Prop
  | .ok _ _ => True
  | .error (.fault _) after => after = machine
  | .error (.misuse _) _ => False

theorem load_failsCleanly {size : LoadSize} {transfer : Transfer}
    (wellFormed : transfer.WellFormed size.isLong) :
    FailsCleanly machine ((load size transfer).run machine) := by
  by_cases double : size = .doubleWord
  · subst double
    rw [run_load_doubleWord wellFormed, Failure.naming_of_fits wellFormed.valueNames.fitsDecimal]
    dsimp only
    split
    · rfl
    · split
      · rfl
      · split
        · rfl
        · trivial
  · rcases LoadSize.access_of_single double with ⟨entry, found⟩
    rw [run_load found wellFormed]
    split
    · trivial
    · rfl

theorem store_failsCleanly {size : StoreSize} {transfer : Transfer}
    (single : size ≠ .doubleWord) (wellFormed : transfer.WellFormed size.isLong) :
    FailsCleanly machine ((store size transfer).run machine) := by
  rcases StoreSize.accessWidth_of_single single with ⟨width, found⟩
  rw [run_store found wellFormed]
  dsimp only
  split
  · trivial
  · rfl

theorem writeCall_failsCleanly : FailsCleanly machine (writeCall.run machine) := by
  rw [run_writeCall]
  split
  · rfl
  · split
    · rfl
    · cases machine.memory.readString (machine.valueOf 1).toInt with
      | ok bytes => trivial
      | error fault => rfl

theorem systemCall_failsCleanly : FailsCleanly machine (systemCall.run machine) := by
  rw [run_systemCall]
  cases SystemCall.ofNumber? (machine.operandValue Register.callNumber) with
  | none => rfl
  | some call =>
      cases call with
      | exit => trivial
      | write => exact writeCall_failsCleanly

theorem perform_failsCleanly {operation : Operation} (wellFormed : operation.WellFormed)
    (other : ∀ transfer, operation ≠ .store .doubleWord transfer) :
    FailsCleanly machine ((perform operation).run machine) := by
  cases operation with
  | combine operator destination source second setsFlags =>
      rcases wellFormed with ⟨destinationNames, sourceNames, operandFits⟩
      rw [perform, run_combine operator setsFlags destinationNames sourceNames operandFits]
      trivial
  | compare source second =>
      rw [perform, run_compare wellFormed.1 wellFormed.2]
      trivial
  | move inverted destination source setsFlags =>
      rw [perform, run_move inverted setsFlags wellFormed.1 wellFormed.2]
      trivial
  | moveHalf half destination immediate =>
      rw [perform, run_moveHalf half immediate wellFormed.1]
      trivial
  | branch offset link =>
      rw [perform, run_branch]
      trivial
  | branchExchange register =>
      rw [perform, run_branchExchange wellFormed]
      trivial
  | load size transfer => exact load_failsCleanly wellFormed
  | store size transfer =>
      have single : size ≠ .doubleWord := by
        rintro rfl
        exact other transfer rfl
      exact store_failsCleanly single wellFormed
  | supervisorCall immediate => exact systemCall_failsCleanly
  | undefined => exact wellFormed.elim

/-- Where a store of a double word fails, and what it leaves behind. -/
theorem store_doubleWord_error {transfer : Transfer} (wellFormed : transfer.WellFormed false)
    (failed : (store .doubleWord transfer).run machine = .error failure after) :
    let address := (machine.accessAddress transfer).toInt
    let begun := transfer.PairsRegisters ∧ machine.memory.Contains address 4
    (∃ fault, failure = .fault fault) ∧ (¬ begun → after = machine) ∧
      (begun → ¬ machine.memory.Contains (address + 4) 4 ∧
        after = machine.withStored address 4 (machine.valueOf transfer.valueRegister)) := by
  rw [run_store_doubleWord wellFormed,
    Failure.naming_of_fits wellFormed.valueNames.fitsDecimal] at failed
  dsimp only at failed ⊢
  split at failed
  case isTrue unpaired =>
    cases failed
    exact ⟨⟨_, rfl⟩, fun _ => rfl, fun begun => absurd begun.1 unpaired⟩
  case isFalse paired =>
    split at failed
    case isTrue outside =>
      cases failed
      exact ⟨⟨_, rfl⟩, fun _ => rfl, fun begun => absurd begun.2 outside⟩
    case isFalse inside =>
      have begun := And.intro (Decidable.not_not.mp paired) (Decidable.not_not.mp inside)
      split at failed
      case isTrue second =>
        cases failed
        exact ⟨⟨_, rfl⟩, fun unbegun => absurd begun unbegun, fun _ => ⟨second, rfl⟩⟩
      case isFalse => cases failed

/-- No well-formed operation asks for anything that does not exist. -/
theorem perform_error_is_fault {operation : Operation} (wellFormed : operation.WellFormed)
    (failed : (perform operation).run machine = .error failure after) :
    ∃ fault, failure = .fault fault := by
  by_cases double : ∃ transfer, operation = .store .doubleWord transfer
  · rcases double with ⟨transfer, rfl⟩
    exact (store_doubleWord_error wellFormed failed).1
  · have clean : FailsCleanly machine ((perform operation).run machine) :=
      perform_failsCleanly wellFormed fun transfer equal => double ⟨transfer, equal⟩
    rw [failed] at clean
    cases failure with
    | fault fault => exact ⟨fault, rfl⟩
    | misuse misuse => exact clean.elim

/-! ## Instructions -/

/-- An instruction fails only in its operation, and only if its condition holds. -/
theorem execute_error {instruction : Instruction}
    (failed : (execute instruction).run machine = .error failure after) :
    (perform instruction.operation).run machine.advance = .error failure after := by
  rw [run_execute] at failed
  split at failed
  · exact failed
  · cases failed

/-- However a decoded instruction fails, the program counter has moved on by one
instruction. -/
theorem execute_error_counter {instruction : Instruction} (wellFormed : instruction.WellFormed)
    (failed : (execute instruction).run machine = .error failure after) :
    after.programCounter = machine.programCounter + 4 := by
  have performed := execute_error failed
  rw [← machine.programCounter_advance]
  by_cases double : ∃ transfer, instruction.operation = .store .doubleWord transfer
  · rcases double with ⟨transfer, stores⟩
    rw [Instruction.WellFormed, stores] at wellFormed
    rw [stores] at performed
    rcases store_doubleWord_error wellFormed performed with ⟨-, unbegun, begun⟩
    by_cases started : transfer.PairsRegisters ∧
        machine.advance.memory.Contains (machine.advance.accessAddress transfer).toInt 4
    · rw [(begun started).2]
      rfl
    · rw [unbegun started]
  · have clean : FailsCleanly machine.advance
        ((perform instruction.operation).run machine.advance) :=
      perform_failsCleanly wellFormed fun transfer equal => double ⟨transfer, equal⟩
    rw [performed] at clean
    cases failure with
    | fault fault =>
        have same : after = machine.advance := clean
        rw [same]
    | misuse misuse => exact clean.elim

/-- An instruction that fails and is not a store of a double word has no effect
but the step of the program counter. -/
theorem failed_execution_only_advances {value : Int} {instruction : Instruction}
    (decoded : Instruction.decode value = .ok instruction)
    (other : ∀ transfer, instruction.operation ≠ .store .doubleWord transfer)
    (failed : (execute instruction).run machine = .error failure after) :
    after.programCounter = machine.programCounter + 4 ∧ machine.SameButCounter after := by
  have clean : FailsCleanly machine.advance
      ((perform instruction.operation).run machine.advance) :=
    perform_failsCleanly (Instruction.wellFormed_of_decode decoded) other
  rw [execute_error failed] at clean
  cases failure with
  | fault fault =>
      have same : after = machine.advance := clean
      rw [same]
      exact ⟨machine.programCounter_advance, machine.sameButCounter_advance⟩
  | misuse misuse => exact clean.elim

/-- A load past the end of memory does not write its base back. -/
theorem failed_execution_only_advances_load :
    let machine : Machine :=
      { memory := .zeros 8, registers := (Vector.replicate 16 0).set 1 0x10 }
    let after := machine.advance
    (execute ⟨.always, .load .word ⟨.after, true, .plus, 0, 1, .immediate 4⟩⟩).run machine =
        .error (.fault (.addressOutOfRange 0x10 4 8)) after ∧
      after.programCounter = machine.programCounter + 4 ∧ machine.SameButCounter after := by
  have decoded : Instruction.decode 0xE4910004 =
      .ok ⟨.always, .load .word ⟨.after, true, .plus, 0, 1, .immediate 4⟩⟩ := rfl
  refine ⟨rfl, failed_execution_only_advances decoded ?_ rfl⟩
  intro transfer equal
  cases equal

/-- A store of a double word that fails has no effect but the step of the program
counter, unless its first word had a place in memory and was not there already.
The first word is then written, and nothing else is. -/
theorem failed_doubleWord_store_iff {value : Int} {condition : Condition} {transfer : Transfer}
    (decoded : Instruction.decode value = .ok ⟨condition, .store .doubleWord transfer⟩)
    (failed : (execute ⟨condition, .store .doubleWord transfer⟩).run machine =
      .error failure after) :
    let address := (machine.advance.accessAddress transfer).toInt
    let firstStored := machine.advance.withStored address 4
      (machine.advance.valueOf transfer.valueRegister)
    (machine.SameButCounter after ↔
        ¬ (transfer.PairsRegisters ∧ machine.memory.Contains address 4 ∧
          firstStored.memory ≠ machine.memory)) ∧
      (transfer.PairsRegisters ∧ machine.memory.Contains address 4 →
        ¬ machine.memory.Contains (address + 4) 4 ∧ after = firstStored) := by
  dsimp only
  have wellFormed : transfer.WellFormed false := Instruction.wellFormed_of_decode decoded
  rcases store_doubleWord_error wellFormed (execute_error failed) with ⟨-, unbegun, begun⟩
  rw [machine.advance_memory] at unbegun begun
  refine ⟨?_, begun⟩
  by_cases started : transfer.PairsRegisters ∧
      machine.memory.Contains (machine.advance.accessAddress transfer).toInt 4
  · rw [(begun started).2, machine.sameButCounter_withStored]
    constructor
    · rintro unchanged ⟨-, -, changed⟩
      exact changed unchanged
    · intro kept
      exact Classical.not_not.mp fun changed => kept ⟨started.1, started.2, changed⟩
  · rw [unbegun started]
    exact ⟨fun _ both => started ⟨both.1, both.2.1⟩, fun _ => machine.sameButCounter_advance⟩

/-- A store past the end of memory writes neither a word nor its base. -/
theorem failed_doubleWord_store_iff_outside :
    let machine : Machine :=
      { memory := .zeros 8, registers := ((Vector.replicate 16 0).set 1 8).set 2 7 }
    let transfer : Transfer := ⟨.after, true, .plus, 2, 1, .immediate 8⟩
    (execute ⟨.always, .store .doubleWord transfer⟩).run machine =
        .error (.fault (.addressOutOfRange 8 4 8)) machine.advance ∧
      machine.SameButCounter machine.advance := by
  have decoded : Instruction.decode 0xE0C120F8 =
      .ok ⟨.always, .store .doubleWord ⟨.after, true, .plus, 2, 1, .immediate 8⟩⟩ := rfl
  refine ⟨rfl, (failed_doubleWord_store_iff decoded rfl).1.mpr ?_⟩
  rintro ⟨-, inside, -⟩
  exact absurd inside (by decide)

/-- A store of two words to the last four bytes of memory fails after the first
word has been written. -/
theorem doubleWord_store_keeps_first_word :
    ¬ ∀ (machine after : Machine) (value : Int) (condition : Condition) (transfer : Transfer)
        (failure : Failure),
      Instruction.decode value = .ok ⟨condition, .store .doubleWord transfer⟩ →
      (execute ⟨condition, .store .doubleWord transfer⟩).run machine = .error failure after →
      machine.SameButCounter after := by
  intro atomic
  have same := atomic
    { memory := .zeros 8, registers := ((Vector.replicate 16 0).set 1 4).set 2 7 } _
    0xE1C120F0 .always ⟨.before, false, .plus, 2, 1, .immediate 0⟩ _ rfl rfl
  have bytes := congrArg (Memory.byteAt · 4) same.memory
  exact absurd bytes (by decide)

end Action

end Arm32
