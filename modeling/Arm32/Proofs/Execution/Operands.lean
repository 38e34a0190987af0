import Arm32.Machine.Transfer
import Arm32.Proofs.Instruction.Fields

namespace Arm32

/-! Operands as functions of the machine. The operands of a well-formed
instruction can always be read, and reading them leaves the machine as it is, so
that their values are functions of it and need no action. -/

/-- The second register of a pair comes before the link register. -/
theorem Transfer.PairsRegisters.nextNames {transfer : Transfer} (pairs : transfer.PairsRegisters)
    (names : IsRegister transfer.valueRegister) : IsRegister (transfer.valueRegister + 1) := by
  have notLink : transfer.valueRegister ≠ 14 := pairs.2
  have even := pairs.1
  simp only [IsRegister] at names ⊢
  omega

namespace Machine

/-! ## Registers by number -/

/-- A register as an instruction sees it. A number that names no register reads
as zero. -/
def valueOf (machine : Machine) (number : Int) : Word :=
  match Register.ofNumber? number with
  | some register => machine.operandValue register
  | none => 0

/-- The machine with one register set. A number that names no register sets
none. -/
def assign (machine : Machine) (number : Int) (value : Word) : Machine :=
  match Register.ofNumber? number with
  | some register => machine.setRegister register value
  | none => machine

@[simp] theorem valueOf_number (machine : Machine) (register : Register) :
    machine.valueOf register.number = machine.operandValue register := by
  simp [valueOf]

@[simp] theorem assign_number (machine : Machine) (register : Register) (value : Word) :
    machine.assign register.number value = machine.setRegister register value := by
  simp [assign]

end Machine

/-! ## Shifts by amounts that are not negative -/

namespace Shifter

/-- What a shift gives for an amount that is not negative. -/
def outcome (kind : ShiftKind) (value : Int) (amount : Nat) (carryIn : Bool) : Output :=
  match kind with
  | .logicalLeft => logicalLeft value amount carryIn
  | .logicalRight => logicalRight value amount carryIn
  | .arithmeticRight => arithmeticRight value amount carryIn
  | .rotateRight => rotateRight value amount carryIn

theorem shift_of_nonneg (kind : ShiftKind) (value : Int) {amount : Int} (carryIn : Bool)
    (nonnegative : 0 ≤ amount) :
    shift kind value amount carryIn =
      .ok (outcome kind (value % 0x100000000) amount.toNat carryIn) := by
  have same : (amount.toNat : Int) = amount := Int.toNat_of_nonneg nonnegative
  have notNegative : ¬ amount < 0 := by omega
  cases kind with
  | logicalLeft => simp [shift, shiftValue, checked, outcome, notNegative]
  | logicalRight => simp [shift, shiftValue, checked, outcome, notNegative]
  | arithmeticRight => simp [shift, shiftValue, checked, outcome, notNegative]
  | rotateRight => simp [shift, shiftValue, outcome, same]

theorem encodedAmount_nonneg (kind : ShiftKind) {amount : Int} (nonnegative : 0 ≤ amount) :
    0 ≤ encodedAmount kind amount := by
  unfold encodedAmount
  split
  · decide
  · exact nonnegative

end Shifter

/-! ## Values of operands -/

namespace Machine

/-- A register of the machine, shifted with the carry flag as carry in. -/
def shifted (machine : Machine) (register : Int) (kind : ShiftKind) (amount : Int) :
    Shifter.Output :=
  Shifter.outcome kind (machine.valueOf register).toInt amount.toNat machine.flags.carry

def operandOutput (machine : Machine) : Operand → Shifter.Output
  | .immediate value carry rotation => ⟨value, if rotation = 0 then machine.flags.carry else carry⟩
  | .register register kind (.immediate amount) =>
      if amount = 0 ∧ kind = .rotateRight then
        Shifter.rotateRightExtended (machine.valueOf register).toInt machine.flags.carry
      else machine.shifted register kind (Shifter.encodedAmount kind amount)
  | .register register kind (.register amountRegister) =>
      machine.shifted register kind ((machine.valueOf amountRegister).toInt % 256)

def offsetValue (machine : Machine) : Offset → Int
  | .immediate value => value
  | .register register kind amount =>
      (machine.shifted register kind (Shifter.encodedAmount kind amount)).value

/-- The base of a transfer with its offset added. -/
def adjustedBase (machine : Machine) (transfer : Transfer) : Word :=
  match transfer.sign with
  | .plus =>
      Word.ofInt ((machine.valueOf transfer.baseRegister).toInt +
        machine.offsetValue transfer.offset)
  | .minus =>
      Word.ofInt ((machine.valueOf transfer.baseRegister).toInt -
        machine.offsetValue transfer.offset)

/-- Where a transfer takes place. -/
def accessAddress (machine : Machine) (transfer : Transfer) : Word :=
  match transfer.indexing with
  | .before => machine.adjustedBase transfer
  | .after => machine.valueOf transfer.baseRegister

end Machine

theorem Word.toInt_emod (word : Word) : word.toInt % 0x100000000 = word.toInt := by
  have bound := word.isLt
  simp only [Word.toInt]
  omega

/-! ## Actions on operands -/

namespace Action

variable {machine : Machine}

theorem run_readRegister {number : Int} (names : IsRegister number) :
    (readRegister number).run machine = .ok (machine.valueOf number) machine := by
  rcases names.eq_number with ⟨register, rfl⟩
  simp only [readRegister, registerNumbered, Register.ofNumber?_number, EStateM.run_bind,
    EStateM.run_pure, Machine.valueOf_number]
  rfl

theorem run_writeRegister {number : Int} (value : Word) (names : IsRegister number) :
    (writeRegister number value).run machine = .ok () (machine.assign number value) := by
  rcases names.eq_number with ⟨register, rfl⟩
  simp [writeRegister, registerNumbered]

/-- After an action that succeeds the next one goes on. -/
theorem run_then {action : Action α} {next : α → Action β} {value : α} {between : Machine}
    (succeeded : action.run machine = .ok value between) :
    (action >>= next).run machine = (next value).run between := by
  rw [EStateM.run_bind, succeeded]

/-- A register that is set before anything else is done. -/
theorem run_afterWrite (register : Register) (value : Word) (rest : Action α) :
    (do writeRegister register.number value; rest).run machine =
      rest.run (machine.setRegister register value) := by
  rw [run_then (run_writeRegister value (isRegister_number register)), Machine.assign_number]

/-- A register that is read after everything else is done. -/
theorem run_beforeRead {action : Action Unit} {after : Machine}
    (succeeded : action.run machine = .ok () after) (register : Register) :
    (do action; readRegister register.number).run machine =
      .ok (after.operandValue register) after := by
  rw [run_then succeeded, ← Machine.valueOf_number]
  exact run_readRegister (isRegister_number register)

theorem run_liftFault (result : Except Fault α) :
    (liftFault result).run machine =
      match result with
      | .ok value => .ok value machine
      | .error fault => .error (.fault fault) machine := by
  cases result <;> rfl

theorem run_liftMisuse_ok (value : α) :
    (liftMisuse (.ok value) : Action α).run machine = .ok value machine :=
  rfl

theorem run_shiftBy (kind : ShiftKind) (value : Word) {amount : Int} (nonnegative : 0 ≤ amount) :
    (shiftBy kind value amount).run machine =
      .ok (Shifter.outcome kind value.toInt amount.toNat machine.flags.carry) machine := by
  simp only [shiftBy, EStateM.run_bind, EStateM.run_get,
    Shifter.shift_of_nonneg kind _ _ nonnegative, Word.toInt_emod]
  rfl

theorem run_operand {second : Operand} (wellFormed : second.WellFormed) :
    (operand second).run machine = .ok (machine.operandOutput second) machine := by
  match second, wellFormed with
  | .immediate value carry rotation, _ => rfl
  | .register register kind (.immediate amount), ⟨names, fits⟩ =>
      have nonnegative := Shifter.encodedAmount_nonneg kind fits.nonneg
      simp only [operand, shiftedRegister, EStateM.run_bind, run_readRegister names,
        Machine.operandOutput]
      split
      · rfl
      · exact run_shiftBy kind _ nonnegative
  | .register register kind (.register amountRegister), ⟨names, amountNames⟩ =>
      have nonnegative : 0 ≤ (machine.valueOf amountRegister).toInt % 256 :=
        Int.emod_nonneg _ (by decide)
      simp only [operand, shiftedRegister, EStateM.run_bind, run_readRegister names,
        run_readRegister amountNames]
      exact run_shiftBy kind _ nonnegative

theorem run_offsetValue {offset : Offset} (wellFormed : offset.FitsLong) :
    (offsetValue offset).run machine = .ok (machine.offsetValue offset) machine := by
  match offset, wellFormed with
  | .immediate value, _ => rfl
  | .register register kind amount, ⟨names, fits⟩ =>
      have nonnegative := Shifter.encodedAmount_nonneg kind fits.nonneg
      simp only [offsetValue, EStateM.run_bind, run_readRegister names,
        run_shiftBy kind _ nonnegative]
      rfl

theorem run_addresses {transfer : Transfer} (baseNames : IsRegister transfer.baseRegister)
    (wellFormed : transfer.offset.FitsLong) :
    (addresses transfer).run machine =
      .ok ⟨machine.accessAddress transfer, machine.adjustedBase transfer⟩ machine := by
  simp only [addresses, EStateM.run_bind, run_readRegister baseNames, run_offsetValue wellFormed,
    Machine.accessAddress, Machine.adjustedBase]
  cases transfer.sign <;> cases transfer.indexing <;> rfl

end Action

end Arm32
