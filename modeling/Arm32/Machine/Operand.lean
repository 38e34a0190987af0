import Arm32.Instruction
import Arm32.Machine

namespace Arm32.Action

/-! Values of operands. A shift by a register uses the low byte of that
register, which is read before the register that is shifted. -/

def shiftBy (kind : ShiftKind) (value : Word) (amount : Int) : Action Shifter.Output := do
  liftMisuse (Shifter.shift kind value.toInt amount (← get).flags.carry)

/-- A shifted register. An encoded rotation by zero goes through the carry flag. -/
def shiftedRegister (register : Int) (kind : ShiftKind) (amount : ShiftAmount) :
    Action Shifter.Output :=
  match amount with
  | .immediate amount => do
      let value ← readRegister register
      if amount = 0 ∧ kind = .rotateRight then
        return Shifter.rotateRightExtended value.toInt (← get).flags.carry
      else shiftBy kind value (Shifter.encodedAmount kind amount)
  | .register amountRegister => do
      let amount ← readRegister amountRegister
      let value ← readRegister register
      shiftBy kind value (amount.toInt % 256)

/-- The value of an operand, with the carry that a logical operation takes over. -/
def operand (operand : Operand) : Action Shifter.Output :=
  match operand with
  | .immediate value carry rotation => do
      let flags := (← get).flags
      return ⟨value, if rotation = 0 then flags.carry else carry⟩
  | .register register kind amount => shiftedRegister register kind amount

end Arm32.Action
