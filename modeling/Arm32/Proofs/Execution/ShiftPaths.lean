import Arm32.Proofs.Execution.Effects
import Arm32.Proofs.Shifter.Law

namespace Arm32

/-! Three ways to a shifted register. A data operation finds the amount in its encoding
or in another register, and a transfer finds it in its offset; each way has its own
treatment of an encoded zero. They agree, but for the rotation by no bits, which only a
data operation takes through the carry flag. -/

/-- The number of bits that an encoded amount stands for. -/
def ShiftKind.bitCount (kind : ShiftKind) (amount : Int) : Int :=
  if amount = 0 ∧ (kind = .logicalRight ∨ kind = .arithmeticRight) then 32 else amount

example : ShiftKind.logicalRight.bitCount 0 = 32 := by decide

/-- The operator that brings an offset of this sign to the base. -/
def OffsetSign.operator : OffsetSign → DataOperator
  | .plus => .add
  | .minus => .subtract

variable {kind : ShiftKind} {amount : Int}

theorem Shifter.encodedAmount_eq_bitCount (ordinary : ¬ (amount = 0 ∧ kind = .rotateRight)) :
    encodedAmount kind amount = kind.bitCount amount := by
  unfold encodedAmount ShiftKind.bitCount
  by_cases none : amount = 0
  · subst none
    cases kind with
    | rotateRight => exact absurd ⟨rfl, rfl⟩ ordinary
    | logicalLeft | logicalRight | arithmeticRight => rfl
  · rw [if_neg fun encoded => none encoded.1, if_neg fun encoded => none encoded.1]

namespace Machine

variable (machine : Machine) (register : Int)

/-! ## The same shift -/

theorem operandOutput_encoded (ordinary : ¬ (amount = 0 ∧ kind = .rotateRight)) :
    machine.operandOutput (.register register kind (.immediate amount)) =
      machine.shifted register kind (kind.bitCount amount) := by
  rw [operandOutput, if_neg ordinary, Shifter.encodedAmount_eq_bitCount ordinary]

theorem operandOutput_counted {amountRegister : Int}
    (count : (machine.valueOf amountRegister).toInt % 256 = kind.bitCount amount) :
    machine.operandOutput (.register register kind (.register amountRegister)) =
      machine.shifted register kind (kind.bitCount amount) := by
  rw [operandOutput, count]

theorem offsetValue_shifted (ordinary : ¬ (amount = 0 ∧ kind = .rotateRight)) :
    machine.offsetValue (.register register kind amount) =
      (machine.shifted register kind (kind.bitCount amount)).value := by
  rw [offsetValue, Shifter.encodedAmount_eq_bitCount ordinary]

/-- Adding the offset to the base is what an addition or a subtraction does. -/
theorem accessAddress_shifted (ordinary : ¬ (amount = 0 ∧ kind = .rotateRight)) (base : Int)
    (sign : OffsetSign) (valueRegister : Int) (writeBack carryIn : Bool) :
    machine.accessAddress ⟨.before, writeBack, sign, valueRegister, base,
        .register register kind amount⟩ =
      Word.ofInt (sign.operator.apply (machine.valueOf base)
        (machine.shifted register kind (kind.bitCount amount)) carryIn).value := by
  rw [accessAddress, adjustedBase, machine.offsetValue_shifted register ordinary]
  cases sign with
  | plus =>
      have uncarried := Int.add_zero ((machine.valueOf base).toInt +
        (machine.shifted register kind (kind.bitCount amount)).value)
      rw [← uncarried]
      exact (Word.ofInt_emod _).symm
  | minus => exact (Word.ofInt_emod _).symm

/-! ## The rotation by no bits -/

theorem operandOutput_throughCarry :
    machine.operandOutput (.register register .rotateRight (.immediate 0)) =
      ⟨machine.flags.carry.toInt * 0x80000000 + (machine.valueOf register).toInt / 2,
        (machine.valueOf register).getLsbD 0⟩ := by
  rw [operandOutput, if_pos ⟨rfl, rfl⟩, Shifter.rotateRightExtended, Word.toInt_emod, bitOf_toInt]

theorem offsetValue_unrotated :
    machine.offsetValue (.register register .rotateRight 0) = (machine.valueOf register).toInt :=
  Shifter.rotateRight_whole _ machine.flags.carry

end Machine

namespace Action

/-- However a shift reaches the shifter, the same value and carry come out, and a
transfer goes to the address that an addition or a subtraction would have given. The
rotation by no bits goes through the carry flag in a data operation, and leaves the
offset of a transfer as it is. -/
theorem shiftedRegister_agrees (machine : Machine) (register : Register) (kind : ShiftKind)
    {amount : Int} (fits : Fits 5 amount) :
    (¬ (amount = 0 ∧ kind = .rotateRight) →
      ∃ output : Shifter.Output,
        (shiftedRegister register.number kind (.immediate amount)).run machine =
          .ok output machine ∧
        (∀ amountRegister : Register,
          (machine.operandValue amountRegister).toInt % 256 = kind.bitCount amount →
          (shiftedRegister register.number kind (.register amountRegister.number)).run machine =
            .ok output machine) ∧
        ∀ (base destination : Register) (sign : OffsetSign) (valueRegister : Int)
          (writeBack setsFlags : Bool),
          ∃ (place : Transfer.Addresses) (after : Machine),
            (addresses ⟨.before, writeBack, sign, valueRegister, base.number,
              .register register.number kind amount⟩).run machine = .ok place machine ∧
            (perform (.combine sign.operator destination.number base.number
              (.register register.number kind (.immediate amount)) setsFlags)).run machine =
              .ok () after ∧
            after.registers.get destination = place.access) ∧
    (amount = 0 ∧ kind = .rotateRight →
      (shiftedRegister register.number kind (.immediate amount)).run machine =
        .ok ⟨machine.flags.carry.toInt * 0x80000000 + (machine.operandValue register).toInt / 2,
          (machine.operandValue register).getLsbD 0⟩ machine ∧
      (offsetValue (.register register.number kind amount)).run machine =
        .ok (machine.operandValue register).toInt machine) := by
  have names := isRegister_number register
  have encodedFits : (Operand.register register.number kind (.immediate amount)).WellFormed :=
    ⟨names, fits⟩
  have offsetFits : (Offset.register register.number kind amount).FitsLong := ⟨names, fits⟩
  constructor
  · intro ordinary
    have encoded := machine.operandOutput_encoded register.number ordinary
    refine ⟨machine.shifted register.number kind (kind.bitCount amount), ?_, ?_, ?_⟩
    · rw [← encoded]
      exact run_operand encodedFits
    · intro amountRegister count
      have countedFits : (Operand.register register.number kind
          (.register amountRegister.number)).WellFormed :=
        ⟨names, isRegister_number amountRegister⟩
      rw [← Machine.valueOf_number] at count
      rw [← machine.operandOutput_counted register.number count]
      exact run_operand countedFits
    · intro base destination sign valueRegister writeBack setsFlags
      have baseNames := isRegister_number base
      have destinationNames := isRegister_number destination
      refine ⟨_, _, run_addresses baseNames offsetFits,
        run_combine sign.operator setsFlags destinationNames baseNames encodedFits, ?_⟩
      rw [Machine.withResult_destination, encoded]
      exact (machine.accessAddress_shifted register.number ordinary _ sign _ _ _).symm
  · rintro ⟨rfl, rfl⟩
    rw [← Machine.valueOf_number, ← machine.operandOutput_throughCarry,
      ← machine.offsetValue_unrotated]
    exact ⟨run_operand encodedFits, run_offsetValue offsetFits⟩

/-- The program counter shifted by a whole word leaves its sign, and rotated by none it
takes the carry flag in. -/
theorem shiftedRegister_agrees_programCounter :
    let machine : Machine :=
      { memory := .zeros 8,
        registers := ((Vector.replicate 16 0).setIfInBounds 2 0x120).setIfInBounds 15 0x80000000,
        flags := { carry := true } }
    (shiftedRegister 15 .arithmeticRight (.immediate 0)).run machine =
        .ok ⟨0xFFFFFFFF, true⟩ machine ∧
      (shiftedRegister 15 .arithmeticRight (.register 2)).run machine =
        .ok ⟨0xFFFFFFFF, true⟩ machine ∧
      (∃ after, (perform (.combine .subtract 3 15
          (.register 15 .arithmeticRight (.immediate 0)) true)).run machine = .ok () after ∧
        after.registers.get 3 = 0x80000005) ∧
      (shiftedRegister 15 .rotateRight (.immediate 0)).run machine =
        .ok ⟨0xC0000002, false⟩ machine := by
  intro machine
  have fits : Fits 5 0 := by decide
  rcases (shiftedRegister_agrees machine 15 .arithmeticRight fits).1 (by decide) with
    ⟨output, encoded, counted, transferred⟩
  have evaluated : (shiftedRegister 15 .arithmeticRight (.immediate 0)).run machine =
      .ok ⟨0xFFFFFFFF, true⟩ machine := by
    dsimp only [machine]
    rfl
  have same : output = ⟨0xFFFFFFFF, true⟩ := by
    injection encoded.symm.trans evaluated
  rcases transferred 15 3 .minus 0 false true with ⟨place, after, located, performed, result⟩
  have access : place.access = 0x80000005 := by
    have reached : (addresses ⟨.before, false, .minus, 0, 15,
        .register 15 .arithmeticRight 0⟩).run machine =
        .ok ⟨0x80000005, 0x80000005⟩ machine := by
      dsimp only [machine]
      rfl
    injection located.symm.trans reached with places
    rw [places]
  refine ⟨evaluated, ?_, ⟨after, performed, result.trans access⟩, ?_⟩
  · have lowByte : machine.operandValue 2 = 0x120 := rfl
    rw [← same]
    apply counted 2
    rw [lowByte]
    rfl
  · have rotated := ((shiftedRegister_agrees machine 15 .rotateRight fits).2 ⟨rfl, rfl⟩).1
    have carry : machine.flags.carry = true := rfl
    have counter : machine.operandValue 15 = 0x80000004 := rfl
    rw [carry, counter] at rotated
    exact rotated

end Action

end Arm32
