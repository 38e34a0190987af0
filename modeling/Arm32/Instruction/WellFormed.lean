import Arm32.Instruction

namespace Arm32

/-! Well-formed instructions: those whose fields have room in a word. -/

def IsRegister (number : Int) : Prop :=
  0 ≤ number ∧ number < 16

instance (number : Int) : Decidable (IsRegister number) :=
  inferInstanceAs (Decidable (_ ∧ _))

/-- A number that fits into a field of a given width. -/
def Fits (width : Nat) (value : Int) : Prop :=
  0 ≤ value ∧ value < (1 <<< width : Nat)

instance (width : Nat) (value : Int) : Decidable (Fits width value) :=
  inferInstanceAs (Decidable (_ ∧ _))

def ShiftAmount.WellFormed : ShiftAmount → Prop
  | .immediate amount => Fits 5 amount
  | .register number => IsRegister number

/-- A byte rotated to the right by an even amount; the carry is its top bit. -/
def RotatedByte (value : Int) (carry : Bool) (rotation : Int) : Prop :=
  Fits 5 rotation ∧ rotation % 2 = 0 ∧ carry = isNegative value ∧
    ∃ byte : Int, Fits 8 byte ∧ value = (Word.rotateRight byte rotation).toInt

def Operand.WellFormed : Operand → Prop
  | .immediate value carry rotation => RotatedByte value carry rotation
  | .register number _ amount => IsRegister number ∧ amount.WellFormed

/-- Words and bytes have room for a long immediate offset and for a shift. -/
def Offset.FitsLong : Offset → Prop
  | .immediate value => Fits 12 value
  | .register number _ amount => IsRegister number ∧ Fits 5 amount

/-- The other sizes have room for a byte and for a plain register. -/
def Offset.FitsShort : Offset → Prop
  | .immediate value => Fits 8 value
  | .register number kind amount => IsRegister number ∧ kind = .logicalLeft ∧ amount = 0

def LoadSize.isLong : LoadSize → Bool
  | .word | .byte => true
  | .doubleWord | .unsignedHalfWord | .signedByte | .signedHalfWord => false

def StoreSize.isLong : StoreSize → Bool
  | .word | .byte => true
  | .doubleWord | .halfWord => false

/-- A transfer whose offset is added afterwards has to write its base back. -/
def Transfer.WellFormed (transfer : Transfer) (long : Bool) : Prop :=
  IsRegister transfer.valueRegister ∧ IsRegister transfer.baseRegister ∧
    (transfer.indexing = .after → transfer.writeBack = true) ∧
    if long then transfer.offset.FitsLong else transfer.offset.FitsShort

/-- The offsets that a branch reaches: whole words, 24 bits of them, counted from
two instructions after the branch. -/
def BranchOffset (offset : Int) : Prop :=
  offset % 4 = 0 ∧ -0x2000000 ≤ offset - 8 ∧ offset - 8 < 0x2000000

instance (offset : Int) : Decidable (BranchOffset offset) :=
  inferInstanceAs (Decidable (_ ∧ _))

def Operation.WellFormed : Operation → Prop
  | .combine _ destination source operand _ =>
      IsRegister destination ∧ IsRegister source ∧ operand.WellFormed
  | .compare source operand => IsRegister source ∧ operand.WellFormed
  | .move _ destination operand _ => IsRegister destination ∧ operand.WellFormed
  | .moveHalf _ destination immediate => IsRegister destination ∧ Fits 16 immediate
  | .branch offset _ => BranchOffset offset
  | .branchExchange register => IsRegister register
  | .load size transfer => transfer.WellFormed size.isLong
  | .store size transfer => transfer.WellFormed size.isLong
  | .supervisorCall immediate => Fits 24 immediate
  | .undefined => False

/-- Every condition has a code, so only the operation matters. -/
def Instruction.WellFormed (instruction : Instruction) : Prop :=
  instruction.operation.WellFormed

end Arm32
