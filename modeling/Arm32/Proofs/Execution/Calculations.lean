import Arm32.Proofs.Arithmetic.Exactness
import Arm32.Proofs.Execution.Transfers

namespace Arm32

/-! Calculations of instructions. An addition, a subtraction or a comparison reads a
register and an operand, which are words whatever their form, and leaves behind what
exact arithmetic says. -/

/-- What an arithmetic operation is made of. A comparison keeps no result. -/
structure Computation where
  calculation : Calculation
  destination? : Option Int
  source : Int
  operand : Operand
  setsFlags : Bool
deriving DecidableEq, Repr

def Operation.computation? : Operation → Option Computation
  | .combine operator destination source operand setsFlags =>
      (Calculation.ofOperator? operator).map fun calculation =>
        { calculation, destination? := some destination, source, operand, setsFlags }
  | .compare source operand =>
      some { calculation := .difference, destination? := none, source, operand, setsFlags := true }
  | _ => none

namespace Machine

/-- The machine after an arithmetic operation on its source and a second word. The
program counter moves on before the result is written. -/
def computed (machine : Machine) (computation : Computation) (second : Word) : Machine :=
  let first := machine.sourceValue computation.source
  let carryIn := machine.flags.carry
  let moved := machine.registers.setIfInBounds 15 (machine.programCounter + 4)
  { machine with
    registers :=
      match computation.destination? with
      | some destination =>
          moved.setIfInBounds destination.toNat
            (computation.calculation.result first second carryIn)
      | none => moved
    flags :=
      if computation.setsFlags then computation.calculation.flags first second carryIn
      else machine.flags }

end Machine

/-! ## Operands are words -/

theorem Word.exists_toInt {value : Int} (nonnegative : 0 ≤ value) (bound : value < 0x100000000) :
    ∃ word : Word, value = word.toInt := by
  refine ⟨ofInt value, ?_⟩
  have reduced := toNat_ofInt value
  simp only [toInt]
  omega

theorem Shifter.outcome_isWord (kind : ShiftKind) (word : Word) (amount : Nat) (carryIn : Bool) :
    ∃ shifted : Word, (outcome kind word.toInt amount carryIn).value = shifted.toInt := by
  have bounds := uniform_bounds kind word amount carryIn
  rw [outcome_eq_uniform]
  exact Word.exists_toInt bounds.1 bounds.2

theorem Shifter.rotateRightExtended_isWord (word : Word) (carryIn : Bool) :
    ∃ shifted : Word, (rotateRightExtended word.toInt carryIn).value = shifted.toInt := by
  have carryBound : carryIn.toInt = 0 ∨ carryIn.toInt = 1 := by cases carryIn <;> decide
  have bound := word.isLt
  apply Word.exists_toInt
  · simp only [rotateRightExtended, Word.toInt]
    omega
  · simp only [rotateRightExtended, Word.toInt]
    omega

namespace Machine

theorem operandOutput_isWord {operand : Operand} (wellFormed : operand.WellFormed)
    (machine : Machine) :
    ∃ second : Word, (machine.operandOutput operand).value = second.toInt := by
  match operand, wellFormed with
  | .immediate value carry rotation, ⟨_, _, _, byte, _, rotated⟩ => exact ⟨_, rotated⟩
  | .register register kind (.immediate amount), _ =>
      rw [operandOutput]
      split
      case isTrue => exact Shifter.rotateRightExtended_isWord _ _
      case isFalse => exact Shifter.outcome_isWord kind _ _ _
  | .register register kind (.register amountRegister), _ =>
      exact Shifter.outcome_isWord kind _ _ _

/-! ## Effects -/

theorem withFlags_dataResult (machine : Machine) (calculation : Calculation) (first second : Word)
    (carryIn : Bool) :
    machine.withFlags (calculation.dataResult first second carryIn) =
      { machine with flags := calculation.flags first second carryIn } := by
  rw [withFlags, calculation.update_dataResult]

theorem withResult_dataResult (machine : Machine) {destination : Int}
    (names : IsRegister destination) (calculation : Calculation) (first second : Word)
    (carryIn setsFlags : Bool) :
    machine.withResult destination (calculation.dataResult first second carryIn) setsFlags =
      { machine with
        registers := machine.registers.setIfInBounds destination.toNat
          (calculation.result first second carryIn)
        flags := if setsFlags then calculation.flags first second carryIn else machine.flags } := by
  have value : Word.ofInt (calculation.dataResult first second carryIn).value =
      calculation.result first second carryIn := Word.ofInt_toInt _
  rw [withResult, value, assign_eq _ names]
  cases setsFlags with
  | true => exact withFlags_dataResult _ calculation first second carryIn
  | false => rfl

end Machine

namespace Action

variable {machine : Machine} {operation : Operation} {computation : Computation}

/-- The second word of an arithmetic operation. -/
theorem run_operand_isWord (machine : Machine) {second : Operand}
    (wellFormed : second.WellFormed) :
    ∃ (word : Word) (shiftCarry : Bool),
      (operand second).run machine = .ok ⟨word.toInt, shiftCarry⟩ machine ∧
      machine.operandOutput second = ⟨word.toInt, shiftCarry⟩ := by
  rcases Machine.operandOutput_isWord wellFormed machine with ⟨word, value⟩
  refine ⟨word, (machine.operandOutput second).carry, ?_, ?_⟩
  · rw [run_operand wellFormed, ← value]
  · rw [← value]

theorem operand_word_unique {second : Operand} {word other : Word} {carry otherCarry : Bool}
    (read : (operand second).run machine = .ok ⟨word.toInt, carry⟩ machine)
    (evaluated : (operand second).run machine = .ok ⟨other.toInt, otherCarry⟩ machine) :
    word = other := by
  injection read.symm.trans evaluated with outputs
  injection outputs with values
  exact Word.toInt_injective values

theorem run_computation (machine : Machine) (wellFormed : operation.WellFormed)
    (computes : operation.computation? = some computation) :
    ∃ (second : Word) (shiftCarry : Bool),
      (operand computation.operand).run machine.advance =
        .ok ⟨second.toInt, shiftCarry⟩ machine.advance ∧
      (perform operation).run machine.advance = .ok () (machine.computed computation second) := by
  cases operation with
  | combine operator destination source second setsFlags =>
      rcases wellFormed with ⟨destinationNames, sourceNames, operandFits⟩
      rcases Option.map_eq_some_iff.mp computes with ⟨calculation, calculates, rfl⟩
      rcases run_operand_isWord machine.advance operandFits with
        ⟨word, shiftCarry, read, output⟩
      refine ⟨word, shiftCarry, read, ?_⟩
      apply (run_combine operator setsFlags destinationNames sourceNames operandFits).trans
      rw [output, Machine.valueOf_advance sourceNames, Calculation.apply_eq calculates,
        Machine.withResult_dataResult _ destinationNames, machine.advance_eq]
      rfl
  | compare source second =>
      rcases wellFormed with ⟨sourceNames, operandFits⟩
      cases computes
      rcases run_operand_isWord machine.advance operandFits with
        ⟨word, shiftCarry, read, output⟩
      refine ⟨word, shiftCarry, read, ?_⟩
      apply (run_compare sourceNames operandFits).trans
      rw [output, Machine.valueOf_advance sourceNames,
        Calculation.subtract_eq _ _ machine.flags.carry, Machine.withFlags_dataResult,
        machine.advance_eq]
      rfl
  | _ => cases computes

/-- Additions, subtractions and comparisons calculate exactly. The result is what a word
has room for, the carry tells whether the unsigned outcome had room, and the overflow
whether the signed one had. -/
theorem computation_exact {value : Int} {condition : Condition}
    (decoded : Instruction.decode value = .ok ⟨condition, operation⟩)
    (holds : condition.holds machine.flags = true)
    (computes : operation.computation? = some computation) :
    ∃ (second : Word) (shiftCarry : Bool),
      (operand computation.operand).run machine.advance =
        .ok ⟨second.toInt, shiftCarry⟩ machine.advance ∧
      (execute ⟨condition, operation⟩).run machine =
        .ok () (machine.computed computation second) := by
  have wellFormed : operation.WellFormed := Instruction.wellFormed_of_decode decoded
  rw [run_execute, if_pos holds]
  exact run_computation machine wellFormed computes

/-- The carry enters the sum twice, through the rotated operand and as itself. -/
theorem computation_exact_throughCarry :
    let machine : Machine :=
      { memory := .zeros 8,
        registers := (Vector.replicate 16 0).setIfInBounds 1 0x80000000,
        flags := { carry := true } }
    let after : Machine :=
      { memory := .zeros 8,
        registers := ((Vector.replicate 16 0).setIfInBounds 15 4).setIfInBounds 1 0x40000001,
        flags := { carry := true, overflow := true } }
    (execute ⟨.always, .combine .addWithCarry 1 1 (.register 1 .rotateRight (.immediate 0))
      true⟩).run machine = .ok () after := by
  intro machine after
  have decoded : Instruction.decode 0xE0B11061 =
      .ok ⟨.always, .combine .addWithCarry 1 1 (.register 1 .rotateRight (.immediate 0))
        true⟩ := rfl
  have holds : Condition.always.holds machine.flags = true := rfl
  rcases computation_exact decoded holds rfl with ⟨second, shiftCarry, read, performed⟩
  have rotated : Shifter.rotateRightExtended (0x80000000 : Word).toInt true =
      ⟨(0xC0000000 : Word).toInt, false⟩ := rfl
  have evaluated : (operand (.register 1 .rotateRight (.immediate 0))).run machine.advance =
      .ok (Shifter.rotateRightExtended (0x80000000 : Word).toInt true) machine.advance := rfl
  rw [rotated] at evaluated
  have source : machine.sourceValue 1 = 0x80000000 := rfl
  rw [performed, operand_word_unique read evaluated, Machine.computed, source]
  rfl

end Action

end Arm32
