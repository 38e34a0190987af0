import Arm32.Proofs.Execution.Effects
import Arm32.Proofs.Memory.Enlarging

namespace Arm32

/-! Instructions on machines with memories of two sizes. A larger memory that begins
with the smaller one is told from it only by an access that the smaller one refuses. -/

/-! ## Machines -/

/-- Two machines that differ in memory only, and there only past the smaller one. -/
structure Machine.Enlarged (size largerSize : Nat) (machine larger : Machine) : Prop where
  memory : Memory.Enlarged size largerSize machine.memory larger.memory
  rest : larger = { machine with memory := larger.memory }

namespace Machine.Enlarged

variable {size largerSize : Nat} {machine larger : Machine}

theorem registers (enlarged : Enlarged size largerSize machine larger) :
    larger.registers = machine.registers := by
  rw [enlarged.rest]

theorem flags (enlarged : Enlarged size largerSize machine larger) :
    larger.flags = machine.flags := by
  rw [enlarged.rest]

theorem halted (enlarged : Enlarged size largerSize machine larger) :
    larger.halted = machine.halted := by
  rw [enlarged.rest]

theorem console (enlarged : Enlarged size largerSize machine larger) :
    larger.console? = machine.console? := by
  rw [enlarged.rest]

/-! ## What does not depend on memory -/

theorem programCounter (enlarged : Enlarged size largerSize machine larger) :
    larger.programCounter = machine.programCounter := by
  rw [enlarged.rest]
  rfl

theorem operandValue (enlarged : Enlarged size largerSize machine larger) (index : Register) :
    larger.operandValue index = machine.operandValue index := by
  rw [enlarged.rest]
  rfl

theorem valueOf (enlarged : Enlarged size largerSize machine larger) (number : Int) :
    larger.valueOf number = machine.valueOf number := by
  rw [enlarged.rest]
  rfl

theorem operandOutput (enlarged : Enlarged size largerSize machine larger) (operand : Operand) :
    larger.operandOutput operand = machine.operandOutput operand := by
  rw [enlarged.rest]
  rfl

theorem adjustedBase (enlarged : Enlarged size largerSize machine larger) (transfer : Transfer) :
    larger.adjustedBase transfer = machine.adjustedBase transfer := by
  rw [enlarged.rest]
  rfl

theorem accessAddress (enlarged : Enlarged size largerSize machine larger)
    (transfer : Transfer) : larger.accessAddress transfer = machine.accessAddress transfer := by
  rw [enlarged.rest]
  rfl

theorem moveResult (enlarged : Enlarged size largerSize machine larger) (inverted : Bool)
    (source : Operand) :
    larger.moveResult inverted source = machine.moveResult inverted source := by
  rw [enlarged.rest]
  rfl

theorem moveHalfValue (enlarged : Enlarged size largerSize machine larger) (half : Half)
    (destination immediate : Int) :
    larger.moveHalfValue half destination immediate =
      machine.moveHalfValue half destination immediate := by
  rw [enlarged.rest]
  rfl

/-! ## What leaves machines alike -/

theorem setRegister (enlarged : Enlarged size largerSize machine larger) (index : Register)
    (value : Word) :
    Enlarged size largerSize (machine.setRegister index value)
      (larger.setRegister index value) where
  memory := enlarged.memory
  rest := by
    rw [enlarged.rest]
    rfl

theorem setProgramCounter (enlarged : Enlarged size largerSize machine larger) (value : Word) :
    Enlarged size largerSize (machine.setProgramCounter value) (larger.setProgramCounter value) :=
  enlarged.setRegister Register.programCounter value

theorem advance (enlarged : Enlarged size largerSize machine larger) :
    Enlarged size largerSize machine.advance larger.advance := by
  rw [Machine.advance, Machine.advance, enlarged.programCounter]
  exact enlarged.setProgramCounter _

theorem assign (enlarged : Enlarged size largerSize machine larger) (number : Int)
    (value : Word) :
    Enlarged size largerSize (machine.assign number value) (larger.assign number value) := by
  unfold Machine.assign
  split
  · exact enlarged.setRegister _ value
  · exact enlarged

theorem withFlags (enlarged : Enlarged size largerSize machine larger) (result : DataResult) :
    Enlarged size largerSize (machine.withFlags result) (larger.withFlags result) where
  memory := enlarged.memory
  rest := by
    rw [enlarged.rest]
    rfl

theorem withResult (enlarged : Enlarged size largerSize machine larger) (destination : Int)
    (result : DataResult) (setsFlags : Bool) :
    Enlarged size largerSize (machine.withResult destination result setsFlags)
      (larger.withResult destination result setsFlags) := by
  have written := enlarged.assign destination (Word.ofInt result.value)
  cases setsFlags with
  | false => exact written
  | true => exact written.withFlags result

theorem withBase (enlarged : Enlarged size largerSize machine larger) (transfer : Transfer)
    (adjusted : Word) :
    Enlarged size largerSize (machine.withBase transfer adjusted)
      (larger.withBase transfer adjusted) := by
  unfold Machine.withBase
  split
  · exact enlarged.assign _ adjusted
  · exact enlarged

theorem withStored (enlarged : Enlarged size largerSize machine larger) (address : Int)
    (width : Nat) (value : Word) :
    Enlarged size largerSize (machine.withStored address width value)
      (larger.withStored address width value) where
  memory := enlarged.memory.setBytes _ _
  rest := by
    rw [enlarged.rest]
    rfl

theorem withOutput (enlarged : Enlarged size largerSize machine larger) (text : String) :
    Enlarged size largerSize (machine.withOutput text) (larger.withOutput text) where
  memory := enlarged.memory
  rest := by
    rw [enlarged.rest]
    rfl

theorem clearLastWrite (enlarged : Enlarged size largerSize machine larger) :
    Enlarged size largerSize machine.clearLastWrite larger.clearLastWrite where
  memory := enlarged.memory
  rest := by
    rw [enlarged.rest]
    rfl

theorem halt (enlarged : Enlarged size largerSize machine larger) :
    Enlarged size largerSize machine.halt larger.halt where
  memory := enlarged.memory
  rest := by
    rw [enlarged.rest]
    rfl

theorem branched (enlarged : Enlarged size largerSize machine larger) (offset : Int)
    (link : Bool) :
    Enlarged size largerSize (machine.branched offset link) (larger.branched offset link) := by
  have linked : Enlarged size largerSize
      (if link then machine.setRegister Register.link machine.programCounter else machine)
      (if link then larger.setRegister Register.link machine.programCounter else larger) := by
    split
    · exact enlarged.setRegister _ _
    · exact enlarged
  unfold Machine.branched
  rw [enlarged.programCounter]
  dsimp only
  split
  · exact linked.halt
  · exact linked.setProgramCounter _

end Machine.Enlarged

/-! ## Actions -/

namespace Action

variable {size largerSize : Nat} {machine larger : Machine}

/-- The larger machine goes on as the smaller one does, unless that one has failed at
its memory. -/
def Follows (size largerSize : Nat) (result largerResult : EStateM.Result Failure Machine Unit) :
    Prop :=
  match result with
  | .ok _ after =>
      ∃ largerAfter, largerResult = .ok () largerAfter ∧ after.Enlarged size largerSize largerAfter
  | .error (.fault fault) after =>
      fault.kind = .memoryAccess ∨
        ∃ largerAfter, largerResult = .error (.fault fault) largerAfter ∧
          after.Enlarged size largerSize largerAfter
  | .error (.misuse _) _ => True

theorem follows_ok {after largerAfter : Machine}
    (enlarged : after.Enlarged size largerSize largerAfter) :
    Follows size largerSize (.ok () after) (.ok () largerAfter) :=
  ⟨largerAfter, rfl, enlarged⟩

theorem follows_error {fault : Fault} {after largerAfter : Machine}
    (enlarged : after.Enlarged size largerSize largerAfter) :
    Follows size largerSize (.error (.fault fault) after) (.error (.fault fault) largerAfter) :=
  .inr ⟨largerAfter, rfl, enlarged⟩

/-! ## Operations -/

theorem load_follows (enlarged : machine.Enlarged size largerSize larger) {loadSize : LoadSize}
    {transfer : Transfer} (wellFormed : transfer.WellFormed loadSize.isLong) :
    Follows size largerSize ((load loadSize transfer).run machine)
      ((load loadSize transfer).run larger) := by
  have written := enlarged.withBase transfer (machine.adjustedBase transfer)
  by_cases double : loadSize = .doubleWord
  · subst double
    rw [run_load_doubleWord wellFormed, run_load_doubleWord wellFormed,
      Failure.naming_of_fits wellFormed.valueNames.fitsDecimal,
      enlarged.accessAddress, enlarged.adjustedBase]
    dsimp only
    split
    case isTrue => exact follows_error enlarged
    case isFalse =>
      split
      case isTrue => exact .inl rfl
      case isFalse first =>
        have firstInside := Decidable.not_not.mp first
        split
        case isTrue => exact .inl rfl
        case isFalse second =>
          have secondInside := Decidable.not_not.mp second
          rw [if_neg (not_not_intro (enlarged.memory.contains firstInside)),
            if_neg (not_not_intro (enlarged.memory.contains secondInside)),
            enlarged.memory.valueAt_of_contains firstInside,
            enlarged.memory.valueAt_of_contains secondInside]
          exact follows_ok ((written.assign _ _).assign _ _)
  · rcases LoadSize.access_of_single double with ⟨entry, found⟩
    rw [run_load found wellFormed, run_load found wellFormed, enlarged.accessAddress,
      enlarged.adjustedBase]
    split
    case isTrue inside =>
      rw [if_pos (enlarged.memory.contains inside), enlarged.memory.valueAt_of_contains inside]
      exact follows_ok (written.assign _ _)
    case isFalse => exact .inl rfl

theorem store_follows (enlarged : machine.Enlarged size largerSize larger)
    {storeSize : StoreSize} {transfer : Transfer}
    (wellFormed : transfer.WellFormed storeSize.isLong) :
    Follows size largerSize ((store storeSize transfer).run machine)
      ((store storeSize transfer).run larger) := by
  by_cases double : storeSize = .doubleWord
  · subst double
    rw [run_store_doubleWord wellFormed, run_store_doubleWord wellFormed,
      Failure.naming_of_fits wellFormed.valueNames.fitsDecimal,
      enlarged.accessAddress, enlarged.adjustedBase, enlarged.valueOf, enlarged.valueOf]
    dsimp only
    split
    case isTrue => exact follows_error enlarged
    case isFalse =>
      split
      case isTrue => exact .inl rfl
      case isFalse first =>
        have firstInside := Decidable.not_not.mp first
        split
        case isTrue => exact .inl rfl
        case isFalse second =>
          have secondInside := Decidable.not_not.mp second
          rw [if_neg (not_not_intro (enlarged.memory.contains firstInside)),
            if_neg (not_not_intro (enlarged.memory.contains secondInside))]
          exact follows_ok
            (((enlarged.withStored _ 4 _).withStored _ 4 _).withBase transfer _)
  · rcases StoreSize.accessWidth_of_single double with ⟨width, found⟩
    rw [run_store found wellFormed, run_store found wellFormed, enlarged.accessAddress,
      enlarged.adjustedBase, enlarged.valueOf]
    dsimp only
    split
    case isTrue inside =>
      rw [if_pos (enlarged.memory.contains inside)]
      exact follows_ok ((enlarged.withStored _ _ _).withBase transfer _)
    case isFalse => exact .inl rfl

theorem writeCall_follows (enlarged : machine.Enlarged size largerSize larger) :
    Follows size largerSize (writeCall.run machine) (writeCall.run larger) := by
  rw [run_writeCall, run_writeCall, enlarged.valueOf, enlarged.valueOf, enlarged.console]
  split
  · exact follows_error enlarged
  · split
    · exact follows_error enlarged
    · cases found : machine.memory.readString (machine.valueOf 1).toInt with
      | ok bytes =>
          rw [enlarged.memory.readString found]
          exact follows_ok (enlarged.withOutput _)
      | error fault => exact .inl (Memory.readString_error_kind found)

theorem systemCall_follows (enlarged : machine.Enlarged size largerSize larger) :
    Follows size largerSize (systemCall.run machine) (systemCall.run larger) := by
  rw [run_systemCall, run_systemCall, enlarged.operandValue]
  cases SystemCall.ofNumber? (machine.operandValue Register.callNumber) with
  | none => exact follows_error enlarged
  | some call =>
      cases call with
      | exit => exact follows_ok enlarged.halt
      | write => exact writeCall_follows enlarged

/-- Every operation goes on in the same way on the larger machine. -/
theorem perform_follows (enlarged : machine.Enlarged size largerSize larger)
    {operation : Operation} (wellFormed : operation.WellFormed) :
    Follows size largerSize ((perform operation).run machine) ((perform operation).run larger) := by
  cases operation with
  | combine operator destination source second setsFlags =>
      rcases wellFormed with ⟨destinationNames, sourceNames, operandFits⟩
      rw [perform, run_combine operator setsFlags destinationNames sourceNames operandFits,
        run_combine operator setsFlags destinationNames sourceNames operandFits,
        enlarged.valueOf, enlarged.operandOutput, enlarged.flags]
      exact follows_ok (enlarged.withResult _ _ _)
  | compare source second =>
      rw [perform, run_compare wellFormed.1 wellFormed.2, run_compare wellFormed.1 wellFormed.2,
        enlarged.valueOf, enlarged.operandOutput]
      exact follows_ok (enlarged.withFlags _)
  | move inverted destination source setsFlags =>
      rw [perform, run_move inverted setsFlags wellFormed.1 wellFormed.2,
        run_move inverted setsFlags wellFormed.1 wellFormed.2, enlarged.moveResult]
      exact follows_ok (enlarged.withResult _ _ _)
  | moveHalf half destination immediate =>
      rw [perform, run_moveHalf half immediate wellFormed.1,
        run_moveHalf half immediate wellFormed.1, enlarged.moveHalfValue]
      exact follows_ok (enlarged.assign _ _)
  | branch offset link =>
      rw [perform, run_branch, run_branch]
      exact follows_ok (enlarged.branched offset link)
  | branchExchange register =>
      rw [perform, run_branchExchange wellFormed, run_branchExchange wellFormed,
        enlarged.valueOf]
      exact follows_ok (enlarged.setProgramCounter _)
  | load loadSize transfer => exact load_follows enlarged wellFormed
  | store storeSize transfer => exact store_follows enlarged wellFormed
  | supervisorCall immediate => exact systemCall_follows enlarged
  | undefined => exact wellFormed.elim

theorem execute_follows (enlarged : machine.Enlarged size largerSize larger)
    {instruction : Instruction} (wellFormed : instruction.WellFormed) :
    Follows size largerSize ((execute instruction).run machine)
      ((execute instruction).run larger) := by
  rw [run_execute, run_execute, enlarged.flags]
  split
  · exact perform_follows enlarged.advance wellFormed
  · exact follows_ok enlarged.advance

end Action

end Arm32
