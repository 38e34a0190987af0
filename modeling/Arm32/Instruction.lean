import Arm32.Flags
import Arm32.Shifter

namespace Arm32

/-! Instructions as the machine executes them. The fields are unbounded
integers: an instruction that was put together by hand may name a register that
does not exist or hold a value that no encoding has room for. -/

inductive ShiftAmount where
  | immediate (amount : Int)
  | register (register : Int)
deriving DecidableEq, Repr

/-- The flexible second operand. An immediate carries the bit that its rotation
moves to the top; it replaces the carry flag only if there was a rotation. -/
inductive Operand where
  | immediate (value : Int) (carry : Bool) (rotation : Int)
  | register (register : Int) (kind : ShiftKind) (amount : ShiftAmount)
deriving DecidableEq, Repr

inductive DataOperator where
  | add
  | addWithCarry
  | subtract
  | and
  | or
deriving DecidableEq, Repr

inductive Half where
  | low
  | high
deriving DecidableEq, Repr

/-! ## Transfers -/

/-- Whether the offset is added before or after the access. -/
inductive Indexing where
  | before
  | after
deriving DecidableEq, Repr

inductive OffsetSign where
  | plus
  | minus
deriving DecidableEq, Repr

inductive Offset where
  | immediate (value : Int)
  | register (register : Int) (kind : ShiftKind) (amount : Int)
deriving DecidableEq, Repr

/-- The register that a transfer moves and the address it moves it to or from. -/
structure Transfer where
  indexing : Indexing
  writeBack : Bool
  sign : OffsetSign
  valueRegister : Int
  baseRegister : Int
  offset : Offset
deriving DecidableEq, Repr

inductive LoadSize where
  | word
  | byte
  | doubleWord
  | unsignedHalfWord
  | signedByte
  | signedHalfWord
deriving DecidableEq, Repr

inductive StoreSize where
  | word
  | byte
  | doubleWord
  | halfWord
deriving DecidableEq, Repr

/-! ## Operations -/

/-- What an instruction does. The offset of a branch is relative to the address
of the branch itself. `undefined` is an operation without a meaning. -/
inductive Operation where
  | combine (operator : DataOperator) (destination source : Int) (operand : Operand)
      (setsFlags : Bool)
  | compare (source : Int) (operand : Operand)
  | move (inverted : Bool) (destination : Int) (operand : Operand) (setsFlags : Bool)
  | moveHalf (half : Half) (destination immediate : Int)
  | branch (offset : Int) (link : Bool)
  | branchExchange (register : Int)
  | load (size : LoadSize) (transfer : Transfer)
  | store (size : StoreSize) (transfer : Transfer)
  | supervisorCall (immediate : Int)
  | undefined
deriving DecidableEq, Repr

structure Instruction where
  condition : Condition
  operation : Operation
deriving DecidableEq, Repr

end Arm32
