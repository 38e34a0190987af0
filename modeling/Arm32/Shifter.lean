import Arm32.Fault

namespace Arm32

/-! The barrel shifter. Each kind of shift gives a value and a carry; an amount
of zero moves nothing and passes the carry flag through. -/

inductive ShiftKind where
  | logicalLeft
  | logicalRight
  | arithmeticRight
  | rotateRight
deriving DecidableEq, Repr, Inhabited

namespace ShiftKind

def ofCode : Nat → ShiftKind
  | 0 => .logicalLeft
  | 1 => .logicalRight
  | 2 => .arithmeticRight
  | _ => .rotateRight

def code : ShiftKind → Nat
  | .logicalLeft => 0
  | .logicalRight => 1
  | .arithmeticRight => 2
  | .rotateRight => 3

@[simp] theorem ofCode_code (kind : ShiftKind) : ofCode kind.code = kind := by
  cases kind <;> rfl

def mnemonic : ShiftKind → String
  | .logicalLeft => "lsl"
  | .logicalRight => "lsr"
  | .arithmeticRight => "asr"
  | .rotateRight => "ror"

end ShiftKind

namespace Shifter

structure Output where
  value : Int
  carry : Bool
deriving DecidableEq, Repr

/-- The carry is the last bit shifted out at the top. -/
def logicalLeft (value : Int) (amount : Nat) (carryIn : Bool) : Output :=
  if amount = 0 then ⟨value, carryIn⟩
  else if amount < 32 then ⟨value * (1 <<< amount : Nat) % 0x100000000, bitOf value (32 - amount)⟩
  else if amount = 32 then ⟨0, bitOf value 0⟩
  else ⟨0, false⟩

/-- The carry is the last bit shifted out at the bottom; zeros enter at the top. -/
def logicalRight (value : Int) (amount : Nat) (carryIn : Bool) : Output :=
  if amount = 0 then ⟨value, carryIn⟩
  else if amount < 32 then ⟨value / (1 <<< amount : Nat), bitOf value (amount - 1)⟩
  else if amount = 32 then ⟨0, isNegative value⟩
  else ⟨0, false⟩

/-- The carry is the last bit shifted out at the bottom; the sign enters at the
top, and from an amount of 32 on only the sign is left. -/
def arithmeticRight (value : Int) (amount : Nat) (carryIn : Bool) : Output :=
  let sign := isNegative value
  if amount = 0 then ⟨value, carryIn⟩
  else if amount < 32 then
    let signed := if sign then value - 0x100000000 else value
    ⟨signed / (1 <<< amount : Nat) % 0x100000000, bitOf value (amount - 1)⟩
  else ⟨if sign then 0xFFFFFFFF else 0, sign⟩

/-- The carry is the sign of the rotated word. A rotation has no limit, and a
negative amount rotates to the left. -/
def rotateRight (value amount : Int) (carryIn : Bool) : Output :=
  if amount = 0 then ⟨value, carryIn⟩
  else
    let rotated := (Word.rotateRight value amount).toInt
    ⟨rotated, isNegative rotated⟩

def rotateRightExtended (value : Int) (carryIn : Bool) : Output :=
  let word := value % 0x100000000
  ⟨carryIn.toInt * 0x80000000 + word / 2, bitOf word 0⟩

/-- Only a rotation has a meaning for negative amounts. -/
def checked (shift : Nat → Output) (amount : Int) : Except Misuse Output :=
  if amount < 0 then .error .negativeShift else .ok (shift amount.toNat)

/-- The shift of a value of any size. -/
def shiftValue (kind : ShiftKind) (value amount : Int) (carryIn : Bool) :
    Except Misuse Output :=
  match kind with
  | .logicalLeft => checked (logicalLeft value · carryIn) amount
  | .logicalRight => checked (logicalRight value · carryIn) amount
  | .arithmeticRight => checked (arithmeticRight value · carryIn) amount
  | .rotateRight => .ok (rotateRight value amount carryIn)

def shift (kind : ShiftKind) (value amount : Int) (carryIn : Bool) : Except Misuse Output :=
  shiftValue kind (value % 0x100000000) amount carryIn

/-- The amount that an encoded amount stands for: a right shift by zero bits
cannot be encoded, and its code means 32. -/
def encodedAmount (kind : ShiftKind) (amount : Int) : Int :=
  if amount = 0 ∧ kind ≠ .logicalLeft then 32 else amount

end Shifter

end Arm32
