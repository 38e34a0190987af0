import Arm32.Arithmetic
import Arm32.Instruction.Decode
import Arm32.Machine.Transfer
import Arm32.SystemCall

namespace Arm32.Action

/-! The effect of instructions. The program counter moves on before anything
else happens, so a failed condition has no effect but that. -/

/-- Writes a result, and its flags if the instruction asks for them. -/
def writeResult (destination : Int) (result : DataResult) (setsFlags : Bool) : Action Unit := do
  writeRegister destination (Word.ofInt result.value)
  if setsFlags then
    setFlags result.negative result.isZero result.carry result.overflow?

def combine (operator : DataOperator) (destination source : Int) (second : Operand)
    (setsFlags : Bool) : Action Unit := do
  let second ← operand second
  let first ← readRegister source
  let result := operator.apply first second (← get).flags.carry
  writeResult destination result setsFlags

def compare (source : Int) (second : Operand) : Action Unit := do
  let second ← operand second
  let first ← readRegister source
  let result := Arithmetic.subtract first.toInt second.value
  setFlags result.negative result.isZero result.carry result.overflow?

def move (inverted : Bool) (destination : Int) (source : Operand) (setsFlags : Bool) :
    Action Unit := do
  let source ← operand source
  let value := if inverted then Arithmetic.inversion source.value else source.value
  writeResult destination { value, carry := source.carry } setsFlags

/-- The low half of a register is replaced together with the high one, and the
high half alone. -/
def moveHalf (half : Half) (destination immediate : Int) : Action Unit := do
  let immediate := immediate % 0x10000
  match half with
  | .low => writeRegister destination (Word.ofInt immediate)
  | .high => do
      let old ← readRegister destination
      writeRegister destination (Word.ofInt (0x10000 * immediate + old.toInt % 0x10000))

/-- A branch to itself halts the machine. -/
def branch (offset : Int) (link : Bool) : Action Unit := do
  let returnAddress := (← get).programCounter
  let origin := returnAddress - Machine.instructionSize
  if link then writeRegister Register.link.number returnAddress
  let destination := Word.ofInt (origin.toInt + offset)
  if destination = origin then modify Machine.halt
  else modify (·.setProgramCounter destination)

def branchExchange (register : Int) : Action Unit := do
  let destination ← readRegister register
  modify (·.setProgramCounter destination)

def perform (operation : Operation) : Action Unit :=
  match operation with
  | .combine operator destination source second setsFlags =>
      combine operator destination source second setsFlags
  | .compare source second => compare source second
  | .move inverted destination source setsFlags => move inverted destination source setsFlags
  | .moveHalf half destination immediate => moveHalf half destination immediate
  | .branch offset link => branch offset link
  | .branchExchange register => branchExchange register
  | .load size transfer => load size transfer
  | .store size transfer => store size transfer
  | .supervisorCall _ => systemCall
  | .undefined => do
      throw (.fault (.undefinedOperation ((← get).programCounter - Machine.instructionSize)))

def execute (instruction : Instruction) : Action Unit := do
  modify Machine.advance
  if instruction.condition.holds (← get).flags then perform instruction.operation

/-- Executes the instruction that a word encodes. -/
def executeWord (word : Int) : Action Unit := do
  execute (← liftFailure (Instruction.decode word))

/-- Executes the instruction at the program counter. -/
def step : Action Unit := do
  let word ← readMemory (← get).programCounter.toInt 4
  executeWord word

end Arm32.Action
