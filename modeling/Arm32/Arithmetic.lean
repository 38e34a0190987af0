import Arm32.Instruction

namespace Arm32

/-! What the data operations compute: a value of any size, of which a register
takes the low 32 bits, and the flags that go with it. -/

/-- The outcome of a data operation. Logical operations leave the overflow flag
as it is. -/
structure DataResult where
  value : Int
  carry : Bool
  overflow? : Option Bool := none
deriving DecidableEq, Repr

namespace DataResult

def negative (result : DataResult) : Bool :=
  isNegative result.value

def isZero (result : DataResult) : Bool :=
  result.value == 0

end DataResult

namespace Arithmetic

/-- The sum with a carry. The carry out says that the sum needs more than 32
bits, and the overflow that its sign cannot be right. -/
def add (first second : Int) (carryIn : Bool) : DataResult :=
  let total := first + second + carryIn.toInt
  let value := total % 0x100000000
  { value
    carry := 0xFFFFFFFF < total
    overflow? := some
      (isNegative first == isNegative second && isNegative value != isNegative first) }

/-- The difference. The carry says that nothing had to be borrowed. -/
def subtract (first second : Int) : DataResult :=
  let value := (first - second) % 0x100000000
  { value
    carry := value ≤ first
    overflow? := some
      (isNegative first != isNegative second && isNegative value != isNegative first) }

/-- The bits that are set in both; a word has none above bit 31. -/
def conjunction (first : Word) (second : Int) : Int :=
  Word.toInt (first &&& Word.ofInt second)

/-- The bits that are set in either, those of the second above bit 31 included. -/
def disjunction (first : Word) (second : Int) : Int :=
  Word.toInt (first ||| Word.ofInt second) + 0x100000000 * (second / 0x100000000)

/-- The low 32 bits, each inverted. -/
def inversion (operand : Int) : Int :=
  (-1 - operand) % 0x100000000

end Arithmetic

/-- The result of an operator on a register value and an operand. Arithmetic
makes its own carry, and logical operations take over the operand's. -/
def DataOperator.apply (operator : DataOperator) (first : Word) (operand : Shifter.Output)
    (carryIn : Bool) : DataResult :=
  match operator with
  | .add => Arithmetic.add first.toInt operand.value false
  | .addWithCarry => Arithmetic.add first.toInt operand.value carryIn
  | .subtract => Arithmetic.subtract first.toInt operand.value
  | .and => { value := Arithmetic.conjunction first operand.value, carry := operand.carry }
  | .or => { value := Arithmetic.disjunction first operand.value, carry := operand.carry }

end Arm32
