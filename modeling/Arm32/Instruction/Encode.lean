import Arm32.Instruction.Decode

namespace Arm32

/-! Writing instruction words. The word of an instruction is the sum of its
fields, each at its place; bits that decoding ignores are zero. An instruction
that is not well formed gets a word too, but the word does not mean it. -/

namespace Instruction

/-- A number at a place in a word. -/
def placed (value : Int) (low : Nat) : Nat :=
  value.toNat <<< low

/-- A single bit at a place in a word. -/
def flag (value : Bool) (low : Nat) : Nat :=
  value.toNat <<< low

def shiftAmountBits : ShiftAmount → Nat
  | .immediate amount => placed amount 7
  | .register register => placed register 8 + flag true 4

/-- An immediate is rotated back to the byte it came from. -/
def operandBits : Operand → Nat
  | .immediate value _ rotation =>
      flag true 25 + placed (rotation / 2) 8 + (Word.rotateRight value (-rotation)).toNat
  | .register register kind amount =>
      shiftAmountBits amount + placed kind.code 5 + placed register 0

def operatorCode : DataOperator → Nat
  | .and => 0x0
  | .subtract => 0x2
  | .add => 0x4
  | .addWithCarry => 0x5
  | .or => 0xC

def signFlag : OffsetSign → Bool
  | .plus => true
  | .minus => false

/-- The fields that all transfers share. A base that is written back in any case
leaves its bit zero. -/
def transferBits (transfer : Transfer) (isLoad : Bool) : Nat :=
  let before := decide (transfer.indexing = .before)
  flag before 24 + flag (signFlag transfer.sign) 23 + flag (before && transfer.writeBack) 21 +
    flag isLoad 20 + placed transfer.baseRegister 16 + placed transfer.valueRegister 12

def longOffsetBits : Offset → Nat
  | .immediate value => flag true 26 + placed value 0
  | .register register kind amount =>
      flag true 26 + flag true 25 + placed amount 7 + placed kind.code 5 + placed register 0

def shortOffsetBits : Offset → Nat
  | .immediate value => flag true 22 + placed (value / 0x10) 8 + placed (value % 0x10) 0
  | .register register _ _ => placed register 0

/-- A word or byte transfer. -/
def longTransferBits (transfer : Transfer) (isLoad isByte : Bool) : Nat :=
  flag isByte 22 + transferBits transfer isLoad + longOffsetBits transfer.offset

/-- One of the extra transfers, told apart by two bits and the direction. -/
def shortTransferBits (transfer : Transfer) (isLoad : Bool) (type : Nat) : Nat :=
  flag true 7 + placed type 5 + flag true 4 + transferBits transfer isLoad +
    shortOffsetBits transfer.offset

def operationBits : Operation → Nat
  | .combine operator destination source operand setsFlags =>
      placed (operatorCode operator) 21 + flag setsFlags 20 + placed source 16 +
        placed destination 12 + operandBits operand
  | .compare source operand =>
      placed 0xA 21 + flag true 20 + placed source 16 + operandBits operand
  | .move inverted destination operand setsFlags =>
      placed (if inverted then 0xF else 0xD) 21 + flag setsFlags 20 + placed destination 12 +
        operandBits operand
  | .moveHalf half destination immediate =>
      flag true 25 + flag true 24 + flag (half = .high) 22 + placed (immediate / 0x1000) 16 +
        placed destination 12 + placed (immediate % 0x1000) 0
  | .branch offset link =>
      placed 5 25 + flag link 24 + placed ((offset - fetchAhead) / 4 % 0x1000000) 0
  | .branchExchange register => placed 0x12FFF1 4 + placed register 0
  | .load .word transfer => longTransferBits transfer true false
  | .load .byte transfer => longTransferBits transfer true true
  | .load .unsignedHalfWord transfer => shortTransferBits transfer true 1
  | .load .signedByte transfer => shortTransferBits transfer true 2
  | .load .signedHalfWord transfer => shortTransferBits transfer true 3
  | .load .doubleWord transfer => shortTransferBits transfer false 2
  | .store .word transfer => longTransferBits transfer false false
  | .store .byte transfer => longTransferBits transfer false true
  | .store .halfWord transfer => shortTransferBits transfer false 1
  | .store .doubleWord transfer => shortTransferBits transfer false 3
  | .supervisorCall immediate => placed 0xF 24 + placed immediate 0
  | .undefined => 0

/-- The word of an instruction. -/
def encode (instruction : Instruction) : Word :=
  Word.ofInt (placed instruction.condition.code 28 + operationBits instruction.operation : Nat)

end Instruction

end Arm32
