import Arm32.Console
import Arm32.Flags
import Arm32.Memory
import Arm32.Register

namespace Arm32

/-! The machine: sixteen registers, the flags, a memory and a console. Register
15 is the program counter. -/

structure Machine where
  memory : Memory
  registers : Vector Word 16 := Vector.replicate 16 0
  flags : Flags := {}
  halted : Bool := false
  console? : Option Console := none

/-- What may change a machine and fail. The machine is kept as the failed step
left it. -/
abbrev Action := EStateM Failure Machine

namespace Machine

def instructionSize : Word := 4

def programCounter (machine : Machine) : Word :=
  machine.registers.get Register.programCounter

/-- A register as an instruction sees it. The program counter has moved past the
instruction already, and is seen one instruction further on. -/
def operandValue (machine : Machine) (index : Register) : Word :=
  if index = Register.programCounter then machine.programCounter + instructionSize
  else machine.registers.get index

def setRegister (machine : Machine) (index : Register) (value : Word) : Machine :=
  { machine with registers := machine.registers.set index value index.bound }

def setProgramCounter (machine : Machine) (value : Word) : Machine :=
  machine.setRegister Register.programCounter value

/-- Moves the program counter to the next instruction. -/
def advance (machine : Machine) : Machine :=
  machine.setProgramCounter (machine.programCounter + instructionSize)

def halt (machine : Machine) : Machine :=
  { machine with halted := true }

/-- Forgets the last write on the console. -/
def clearLastWrite (machine : Machine) : Machine :=
  { machine with console? := machine.console?.map Console.clearLast }

/-- The text that a program has written. -/
def output (machine : Machine) : String :=
  (machine.console?.map (·.output)).getD ""

@[simp] theorem setRegister_same (machine : Machine) (index : Register) (value : Word) :
    (machine.setRegister index value).registers.get index = value :=
  Vector.getElem_set_self _

theorem setRegister_other (machine : Machine) (index other : Register) (value : Word)
    (different : other ≠ index) :
    (machine.setRegister index value).registers.get other = machine.registers.get other := by
  have apart : index.val ≠ other.val := fun equal => different (Fin.ext equal.symm)
  exact Vector.getElem_set_ne index.bound other.bound apart

@[simp] theorem setProgramCounter_same (machine : Machine) (value : Word) :
    (machine.setProgramCounter value).programCounter = value :=
  machine.setRegister_same Register.programCounter value

/-! ## Listings -/

def registerLine (number : Nat) (value : Word) : String :=
  "R" ++ Numeral.write .decimal number ++ ": " ++ Numeral.write .word value.toInt ++ "\n"

/-- One line for each register. -/
def registerListing (machine : Machine) : String :=
  String.join (machine.registers.toList.mapIdx registerLine)

end Machine

namespace Action

def liftFault (result : Except Fault α) : Action α :=
  match result with
  | .ok value => pure value
  | .error fault => throw (.fault fault)

def liftFailure (result : Except Failure α) : Action α :=
  match result with
  | .ok value => pure value
  | .error failure => throw failure

def liftMisuse (result : Except Misuse α) : Action α :=
  match result with
  | .ok value => pure value
  | .error misuse => throw (.misuse misuse)

def registerNumbered (number : Int) : Action Register :=
  match Register.ofNumber? number with
  | some register => pure register
  | none => throw (.misuse (.invalidRegister number))

/-- Reads a register as an operand. -/
def readRegister (number : Int) : Action Word := do
  let register ← registerNumbered number
  return (← get).operandValue register

def writeRegister (number : Int) (value : Word) : Action Unit := do
  let register ← registerNumbered number
  modify (·.setRegister register value)

def setFlags (negative? zero? carry? overflow? : Option Bool) : Action Unit :=
  modify fun machine =>
    { machine with flags := machine.flags.update negative? zero? carry? overflow? }

def readMemory (address : Int) (width : Nat) : Action Nat := do
  liftFault ((← get).memory.read address width)

/-- Copies a block of bytes to memory. -/
def loadMemory (block : List UInt8) (address : Int) : Action Unit := fun machine =>
  if machine.memory.Contains address block.length then
    .ok () { machine with memory := machine.memory.setBytes address.toNat block }
  else .error (.fault (machine.memory.outOfRange address block.length)) machine

/-- Writes the low `width` bytes of a value to memory. -/
def writeMemory (address : Int) (width : Nat) (value : Int) : Action Unit :=
  loadMemory (LittleEndian.toBytes width value) address

end Action

end Arm32
