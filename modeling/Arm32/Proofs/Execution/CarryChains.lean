import Arm32.Proofs.Arithmetic.Multiword
import Arm32.Proofs.Decoding.Templates
import Arm32.Proofs.Execution.Calculations

namespace Arm32

/-! Additions of numbers that do not fit into a register. A program adds them word by
word, with an instruction that takes the carry of the addition before and leaves its own. -/

/-- The word of an addition of two registers with carry, which sets the flags. -/
def addWithCarryWord (destination first second : Register) : Nat :=
  0xE0B00000 ||| first.val <<< 16 ||| destination.val <<< 12 ||| second.val

/-- The addition that the word stands for. -/
def additionWithCarry (destination first second : Register) : Operation :=
  .combine .addWithCarry destination.number first.number
    (.register second.number .logicalLeft (.immediate 0)) true

theorem wellFormed_additionWithCarry (destination first second : Register) :
    (additionWithCarry destination first second).WellFormed :=
  have fits : Fits 5 0 := by decide
  ⟨isRegister_number destination, isRegister_number first, isRegister_number second, fits⟩

theorem decode_addWithCarryWord (destination first second : Register) :
    Instruction.decode (addWithCarryWord destination first second) =
      .ok ⟨.always, additionWithCarry destination first second⟩ := by
  have wellFormed : Instruction.WellFormed ⟨.always, additionWithCarry destination first second⟩ :=
    wellFormed_additionWithCarry destination first second
  have room : second.val < 1 <<< 12 := Nat.lt_of_lt_of_le second.isLt (by decide)
  have sum : addWithCarryWord destination first second =
      0xE0B <<< 20 + (first.val <<< 16 + (destination.val <<< 12 + second.val)) :=
    Instruction.or_registers 0xE0B first destination room
  apply Instruction.decode_of_encode wellFormed
  rw [Instruction.toNat_encode wellFormed, sum]
  simp only [Condition.code, Instruction.operationBits, additionWithCarry, Register.number,
    Instruction.operatorCode, Instruction.operandBits, Instruction.shiftAmountBits, ShiftKind.code,
    Instruction.placed, Instruction.flag, Bool.toNat_true]
  omega

/-- The machine after two words have been put into registers and added. -/
def Machine.withSum (machine : Machine) (destination first second : Register)
    (pair : Word × Word) : Machine :=
  ((machine.setRegister first pair.1).setRegister second pair.2).advance.withResult
    destination.number
    (Calculation.sumWithCarry.dataResult pair.1 pair.2 machine.flags.carry) true

namespace Action

/-- Puts two words into registers, adds them with the carry that there is, and gives what
the addition has left. -/
def addWords (destination first second : Register) (pair : Word × Word) : Action Word := do
  writeRegister first.number pair.1
  writeRegister second.number pair.2
  executeWord (addWithCarryWord destination first second)
  readRegister destination.number

/-- Adds two numbers of several words, from the lowest word up. -/
def addChain (destination first second : Register) (augend addend : List Word) :
    Action (List Word) :=
  (augend.zip addend).mapM (addWords destination first second)

open Calculation

variable {destination first second : Register}

/-! ## One addition -/

theorem run_addWithCarryWord (machine : Machine) (firstGeneral : first.val < 15)
    (secondGeneral : second.val < 15) :
    (executeWord (addWithCarryWord destination first second)).run machine =
      .ok () (machine.advance.withResult destination.number
        (sumWithCarry.dataResult (machine.registers.get first) (machine.registers.get second)
          machine.flags.carry) true) := by
  rcases wellFormed_additionWithCarry destination first second with
    ⟨destinationNames, firstNames, operandFits⟩
  have firstRead := @Machine.valueOf_advance_number machine first
    (Register.ne_programCounter firstGeneral)
  have secondRead := @Machine.valueOf_advance_number machine second
    (Register.ne_programCounter secondGeneral)
  have unshifted :
      machine.advance.operandOutput (.register second.number .logicalLeft (.immediate 0)) =
        ⟨(machine.registers.get second).toInt, machine.flags.carry⟩ := by
    rw [← secondRead, Machine.operandOutput, if_neg (by decide)]
    exact Shifter.outcome_zero .logicalLeft _ _
  rw [run_executeWord_always (decode_addWithCarryWord destination first second)]
  apply (run_combine .addWithCarry true destinationNames firstNames operandFits).trans
  rw [unshifted, firstRead, apply_eq rfl]
  rfl

theorem flags_withSum (machine : Machine) (pair : Word × Word) :
    (machine.withSum destination first second pair).flags =
      sumWithCarry.flags pair.1 pair.2 machine.flags.carry := by
  rw [Machine.withSum, Machine.withResult_dataResult _ (isRegister_number destination)]
  rfl

theorem operandValue_withSum (machine : Machine) (general : destination.val < 15)
    (pair : Word × Word) :
    (machine.withSum destination first second pair).operandValue destination =
      sumWithCarry.result pair.1 pair.2 machine.flags.carry := by
  rw [Machine.operandValue, if_neg (Register.ne_programCounter general), Machine.withSum,
    Machine.withResult_destination]
  exact Word.ofInt_toInt _

theorem run_addWords (machine : Machine) (destinationGeneral : destination.val < 15)
    (firstGeneral : first.val < 15) (secondGeneral : second.val < 15)
    (different : first ≠ second) (pair : Word × Word) :
    (addWords destination first second pair).run machine =
      .ok (sumWithCarry.result pair.1 pair.2 machine.flags.carry)
        (machine.withSum destination first second pair) := by
  have executed := @run_addWithCarryWord destination first second
    ((machine.setRegister first pair.1).setRegister second pair.2) firstGeneral secondGeneral
  rw [Machine.setRegister_same, Machine.setRegister_other _ _ _ _ different,
    Machine.setRegister_same] at executed
  rw [← operandValue_withSum machine destinationGeneral, addWords, run_afterWrite, run_afterWrite]
  exact run_beforeRead executed destination

/-! ## Chains of additions -/

theorem run_addChain (machine : Machine) (destinationGeneral : destination.val < 15)
    (firstGeneral : first.val < 15) (secondGeneral : second.val < 15)
    (different : first ≠ second) (augend addend : List Word) :
    ∃ after, (addChain destination first second augend addend).run machine =
        .ok (ripple machine.flags (augend.zip addend)).1 after ∧
      after.flags = (ripple machine.flags (augend.zip addend)).2 := by
  unfold addChain
  generalize augend.zip addend = pairs
  induction pairs generalizing machine with
  | nil => exact ⟨machine, rfl, rfl⟩
  | cons pair rest induction =>
      rcases induction (machine.withSum destination first second pair) with
        ⟨after, run, lastFlags⟩
      rw [flags_withSum] at run lastFlags
      refine ⟨after, ?_, lastFlags⟩
      rw [List.mapM_cons, run_then
        (run_addWords machine destinationGeneral firstGeneral secondGeneral different pair),
        run_then run]
      rfl

/-- Additions with carry, one for each word from the lowest up, add numbers of any
length. The carry they leave is what the sum has no room for, and the overflow tells
whether the sum of the signed numbers had room. -/
theorem addChain_exact (machine : Machine) (destinationGeneral : destination.val < 15)
    (firstGeneral : first.val < 15) (secondGeneral : second.val < 15)
    (different : first ≠ second) {augend addend : List Word}
    (sameLength : augend.length = addend.length) (nonempty : augend ≠ []) :
    ∃ sums after,
      (addChain destination first second augend addend).run machine = .ok sums after ∧
      sums.length = augend.length ∧
      unsignedOf sums + after.flags.carry.toNat * 2 ^ (32 * augend.length) =
        unsignedOf augend + unsignedOf addend + machine.flags.carry.toNat ∧
      (after.flags.overflow = true ↔
        ¬ FitsSigned (32 * augend.length)
          (signedOf augend + signedOf addend + machine.flags.carry.toInt)) := by
  rcases run_addChain machine destinationGeneral firstGeneral secondGeneral different augend
    addend with ⟨after, run, flags⟩
  have length : (augend.zip addend).length = augend.length := by
    rw [List.length_zip, sameLength, Nat.min_self]
  have augends : (augend.zip addend).map Prod.fst = augend :=
    List.map_fst_zip sameLength.le
  have addends : (augend.zip addend).map Prod.snd = addend :=
    List.map_snd_zip sameLength.ge
  have unsigned := unsignedOf_ripple machine.flags (augend.zip addend)
  have pairs : augend.zip addend ≠ [] := by
    intro none
    rw [none] at length
    exact nonempty (List.eq_nil_of_length_eq_zero length.symm)
  have signed := overflow_ripple machine.flags pairs
  rw [length, augends, addends] at unsigned signed
  refine ⟨_, after, run, (length_ripple _ _).trans length, ?_, ?_⟩
  · rw [flags]
    exact unsigned
  · rw [flags]
    exact signed

/-- A carry runs through all the words and into the sign. -/
theorem addChain_exact_intoSign :
    let machine : Machine := { memory := .zeros 8, flags := { carry := true } }
    ∃ sums after,
      (addChain 2 1 2 [0xFFFFFFFF, 0xFFFFFFFF, 0x7FFFFFFF] [0, 0, 0]).run machine =
        .ok sums after ∧
      unsignedOf sums = 0x800000000000000000000000 ∧ after.flags.overflow = true := by
  intro machine
  rcases @addChain_exact 2 1 2 machine (by decide) (by decide) (by decide) (by decide)
      [0xFFFFFFFF, 0xFFFFFFFF, 0x7FFFFFFF] [0, 0, 0] rfl (List.cons_ne_nil _ _) with
    ⟨sums, after, run, -, unsigned, signed⟩
  have total : unsignedOf [0xFFFFFFFF, 0xFFFFFFFF, 0x7FFFFFFF] + unsignedOf [0, 0, 0] +
      machine.flags.carry.toNat = 0x800000000000000000000000 := by decide
  have room : ¬ FitsSigned (32 * 3) (signedOf [0xFFFFFFFF, 0xFFFFFFFF, 0x7FFFFFFF] +
      signedOf [0, 0, 0] + machine.flags.carry.toInt) := by decide +kernel
  have power : 2 ^ (32 * 3) = 0x1000000000000000000000000 := by norm_num
  rw [total, List.length_cons, List.length_cons, List.length_cons, List.length_nil, power]
    at unsigned
  refine ⟨sums, after, run, ?_, signed.mpr room⟩
  omega

end Action

end Arm32
