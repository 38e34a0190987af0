import Arm32.Machine.Operand

namespace Arm32

/-! Loads and stores. Everything is read before the base register is written
back, and the base is written back before a loaded value arrives, so that a
register that is both ends up with the loaded value. -/

/-- How one access loads: how many bytes it reads, and the word that a register receives
for them. -/
structure LoadAccess where
  width : Nat
  extend : Nat → Word

/-- The sizes that one access loads. A double word is two accesses and not among them. -/
def LoadSize.access : LoadSize → Except Misuse LoadAccess
  | .word => .ok { width := 4, extend := fun value => Word.ofInt value }
  | .byte => .ok { width := 1, extend := fun value => Word.ofInt value }
  | .unsignedHalfWord => .ok { width := 2, extend := fun value => Word.ofInt value }
  | .signedByte => .ok { width := 1, extend := fun value => Word.signExtend value 8 }
  | .signedHalfWord => .ok { width := 2, extend := fun value => Word.signExtend value 16 }
  | .doubleWord => .error (.unlistedAccess .load)

/-- How many bytes one access stores, for the sizes that are stored in one. -/
def StoreSize.accessWidth : StoreSize → Except Misuse Nat
  | .word => .ok 4
  | .byte => .ok 1
  | .halfWord => .ok 2
  | .doubleWord => .error (.unlistedAccess .store)

theorem LoadSize.access_of_single {size : LoadSize} (single : size ≠ .doubleWord) :
    ∃ entry, size.access = .ok entry := by
  cases size <;> first | exact ⟨_, rfl⟩ | contradiction

theorem StoreSize.accessWidth_of_single {size : StoreSize} (single : size ≠ .doubleWord) :
    ∃ width, size.accessWidth = .ok width := by
  cases size <;> first | exact ⟨_, rfl⟩ | contradiction

theorem LoadSize.single_of_access {size : LoadSize} {entry : LoadAccess}
    (found : size.access = .ok entry) : size ≠ .doubleWord := by
  rintro rfl
  cases found

theorem StoreSize.single_of_accessWidth {size : StoreSize} {width : Nat}
    (found : size.accessWidth = .ok width) : size ≠ .doubleWord := by
  rintro rfl
  cases found

/-- A double word fills an even register and the next one, and never the link
register and the program counter. -/
def Transfer.PairsRegisters (transfer : Transfer) : Prop :=
  transfer.valueRegister % 2 = 0 ∧ transfer.valueRegister ≠ Register.link.number

instance (transfer : Transfer) : Decidable transfer.PairsRegisters :=
  inferInstanceAs (Decidable (_ ∧ _))

/-- Where a transfer takes place. -/
structure Transfer.Addresses where
  /-- The address of the access. -/
  access : Word
  /-- The base with the offset added. -/
  adjusted : Word
deriving DecidableEq, Repr

namespace Action

def offsetValue (offset : Offset) : Action Int :=
  match offset with
  | .immediate value => return value
  | .register register kind amount => do
      let value ← readRegister register
      let shifted ← shiftBy kind value (Shifter.encodedAmount kind amount)
      return shifted.value

def addresses (transfer : Transfer) : Action Transfer.Addresses := do
  let base ← readRegister transfer.baseRegister
  let offset ← offsetValue transfer.offset
  let adjusted := match transfer.sign with
    | .plus => Word.ofInt (base.toInt + offset)
    | .minus => Word.ofInt (base.toInt - offset)
  return match transfer.indexing with
    | .before => { access := adjusted, adjusted }
    | .after => { access := base, adjusted }

def writeBack (transfer : Transfer) (adjusted : Word) : Action Unit :=
  if transfer.writeBack ∨ transfer.indexing = .after then
    writeRegister transfer.baseRegister adjusted
  else pure ()

def checkPair (direction : TransferDirection) (transfer : Transfer) : Action Unit :=
  if transfer.PairsRegisters then pure ()
  else throw (.naming transfer.valueRegister (.unpairedRegister direction))

def load (size : LoadSize) (transfer : Transfer) : Action Unit := do
  if size = .doubleWord then
    checkPair .load transfer
    let place ← addresses transfer
    let low ← readMemory place.access.toInt 4
    let high ← readMemory (place.access.toInt + 4) 4
    writeBack transfer place.adjusted
    writeRegister transfer.valueRegister (Word.ofInt low)
    writeRegister (transfer.valueRegister + 1) (Word.ofInt high)
  else
    let place ← addresses transfer
    let entry ← liftMisuse size.access
    let value ← readMemory place.access.toInt entry.width
    writeBack transfer place.adjusted
    writeRegister transfer.valueRegister (entry.extend value)

def store (size : StoreSize) (transfer : Transfer) : Action Unit := do
  if size = .doubleWord then
    checkPair .store transfer
    let place ← addresses transfer
    let low ← readRegister transfer.valueRegister
    let high ← readRegister (transfer.valueRegister + 1)
    writeMemory place.access.toInt 4 low.toInt
    writeMemory (place.access.toInt + 4) 4 high.toInt
    writeBack transfer place.adjusted
  else
    let place ← addresses transfer
    let value ← readRegister transfer.valueRegister
    let width ← liftMisuse size.accessWidth
    writeMemory place.access.toInt width value.toInt
    writeBack transfer place.adjusted

end Action

end Arm32
