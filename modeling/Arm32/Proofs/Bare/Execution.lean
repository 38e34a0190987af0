import Arm32.Image
import Arm32.Machine.Execute
import Arm32.Proofs.Bare.Machine
import Mathlib.Data.Int.Bitwise

namespace Arm32

/-! Execution in bare numbers. Every value on the way is an integer of any size: operands,
sums, shifted values, addresses and what memory holds. What they are worth in the end is
decided by the masks of the register file and of memory, and it is what the machine makes
of them. -/

namespace Bare

/-- A field as a word with copies of its sign, by the word's number. -/
def signExtend (value : Int) (width : Nat) : Int :=
  let field := lowBits value width
  (if bitOf field (width - 1) then field - (1 <<< width : Nat) else field) % 0x100000000

/-- The result of an operator on numbers of any size. -/
def dataResult (operator : DataOperator) (first : Int) (operand : Shifter.Output)
    (carryIn : Bool) : DataResult :=
  match operator with
  | .add => Arithmetic.add first operand.value false
  | .addWithCarry => Arithmetic.add first operand.value carryIn
  | .subtract => Arithmetic.subtract first operand.value
  | .and => { value := first.land operand.value, carry := operand.carry }
  | .or => { value := first.lor operand.value, carry := operand.carry }

/-- How one access loads. -/
structure LoadAccess where
  width : Nat
  extend : Int → Int

def loadAccess : LoadSize → Except Misuse LoadAccess
  | .word => .ok { width := 4, extend := id }
  | .byte => .ok { width := 1, extend := id }
  | .unsignedHalfWord => .ok { width := 2, extend := id }
  | .signedByte => .ok { width := 1, extend := fun value => signExtend value 8 }
  | .signedHalfWord => .ok { width := 2, extend := fun value => signExtend value 16 }
  | .doubleWord => .error (.unlistedAccess .load)

structure Addresses where
  access : Int
  adjusted : Int

namespace Action

/-! ## Operands -/

def shiftBy (kind : ShiftKind) (value amount : Int) : Action Shifter.Output := do
  liftMisuse (Shifter.shift kind value amount (← get).flags.carry)

def shiftedRegister (register : Int) (kind : ShiftKind) (amount : ShiftAmount) :
    Action Shifter.Output :=
  match amount with
  | .immediate amount => do
      let value ← getRegister register
      if amount = 0 ∧ kind = .rotateRight then
        return Shifter.rotateRightExtended value (← get).flags.carry
      else shiftBy kind value (Shifter.encodedAmount kind amount)
  | .register amountRegister => do
      let amount ← getRegister amountRegister
      let value ← getRegister register
      shiftBy kind value (amount % 256)

def operand (operand : Operand) : Action Shifter.Output :=
  match operand with
  | .immediate value carry rotation => do
      let flags := (← get).flags
      return ⟨value, if rotation = 0 then flags.carry else carry⟩
  | .register register kind amount => shiftedRegister register kind amount

/-! ## Transfers -/

def offsetValue (offset : Offset) : Action Int :=
  match offset with
  | .immediate value => return value
  | .register register kind amount => do
      let value ← getRegister register
      let shifted ← shiftBy kind value (Shifter.encodedAmount kind amount)
      return shifted.value

def addresses (transfer : Transfer) : Action Addresses := do
  let base ← getRegister transfer.baseRegister
  let offset ← offsetValue transfer.offset
  let adjusted := match transfer.sign with
    | .plus => (base + offset) % 0x100000000
    | .minus => (base - offset) % 0x100000000
  return match transfer.indexing with
    | .before => { access := adjusted, adjusted }
    | .after => { access := base, adjusted }

def writeBack (transfer : Transfer) (adjusted : Int) : Action Unit :=
  if transfer.writeBack ∨ transfer.indexing = .after then
    setRegister transfer.baseRegister adjusted
  else pure ()

def checkPair (direction : TransferDirection) (transfer : Transfer) : Action Unit :=
  if transfer.PairsRegisters then pure ()
  else fail (.naming transfer.valueRegister (.unpairedRegister direction))

def load (size : LoadSize) (transfer : Transfer) : Action Unit := do
  if size = .doubleWord then
    checkPair .load transfer
    let place ← addresses transfer
    let low ← readMemory place.access 4
    let high ← readMemory (place.access + 4) 4
    writeBack transfer place.adjusted
    setRegister transfer.valueRegister low
    setRegister (transfer.valueRegister + 1) high
  else
    let place ← addresses transfer
    let entry ← liftMisuse (loadAccess size)
    let value ← readMemory place.access entry.width
    writeBack transfer place.adjusted
    setRegister transfer.valueRegister (entry.extend value)

def store (size : StoreSize) (transfer : Transfer) : Action Unit := do
  if size = .doubleWord then
    checkPair .store transfer
    let place ← addresses transfer
    let low ← getRegister transfer.valueRegister
    let high ← getRegister (transfer.valueRegister + 1)
    writeMemory place.access 4 low
    writeMemory (place.access + 4) 4 high
    writeBack transfer place.adjusted
  else
    let place ← addresses transfer
    let value ← getRegister transfer.valueRegister
    let width ← liftMisuse size.accessWidth
    writeMemory place.access width value
    writeBack transfer place.adjusted

/-! ## System calls -/

def writeCall : Action Unit := do
  let descriptor ← getRegister 0
  let address ← getRegister 1
  if descriptor ≠ 1 then
    fail (.fault (.unsupportedDescriptor (Word.ofInt descriptor)))
  else if (← get).console?.isNone then
    fail (.fault .noConsole)
  else
    let bytes ← lift ((← get).memory.readString address)
    writeText (String.ofList (bytes.map fun byte => Char.ofNat byte.toNat))

def systemCall : Action Unit := do
  let number ← getRegister 7
  if number = 1 then halt
  else if number = 4 then writeCall
  else fail (.fault (.unknownSystemCall (Word.ofInt number)))

/-! ## Instructions -/

def writeResult (destination : Int) (result : DataResult) (setsFlags : Bool) : Action Unit := do
  setRegister destination result.value
  if setsFlags then
    setFlags result.negative result.isZero result.carry result.overflow?

def combine (operator : DataOperator) (destination source : Int) (second : Operand)
    (setsFlags : Bool) : Action Unit := do
  let second ← operand second
  let first ← getRegister source
  let result := dataResult operator first second (← get).flags.carry
  writeResult destination result setsFlags

def compare (source : Int) (second : Operand) : Action Unit := do
  let second ← operand second
  let first ← getRegister source
  let result := Arithmetic.subtract first second.value
  setFlags result.negative result.isZero result.carry result.overflow?

def move (inverted : Bool) (destination : Int) (source : Operand) (setsFlags : Bool) :
    Action Unit := do
  let source ← operand source
  let value := if inverted then Arithmetic.inversion source.value else source.value
  writeResult destination { value, carry := source.carry } setsFlags

def moveHalf (half : Half) (destination immediate : Int) : Action Unit := do
  let immediate := immediate % 0x10000
  match half with
  | .low => setRegister destination immediate
  | .high => do
      let old ← getRegister destination
      setRegister destination (0x10000 * immediate + old % 0x10000)

def branch (offset : Int) (link : Bool) : Action Unit := do
  let returnAddress ← programCounter
  let origin := (returnAddress - 4) % 0x100000000
  if link then setRegister 14 returnAddress
  let destination := (origin + offset) % 0x100000000
  if destination = origin then halt
  else setProgramCounter destination

def branchExchange (register : Int) : Action Unit := do
  let destination ← getRegister register
  setProgramCounter destination

def perform (operation : Operation) : Action Unit :=
  match operation with
  | .combine operator destination source second setsFlags =>
      combine operator destination source second setsFlags
  | .compare source second => compare source second
  | .move inverted destination source setsFlags => move inverted destination source setsFlags
  | .moveHalf half destination immediate => moveHalf half destination immediate
  | .branch offset link => branch offset link
  | .branchExchange register => branchExchange register
  | .load size transfer => load size transfer
  | .store size transfer => store size transfer
  | .supervisorCall _ => systemCall
  | .undefined => do
      let counter ← programCounter
      fail (.fault (.undefinedOperation (Word.ofInt (counter - 4))))

def execute (instruction : Instruction) : Action Unit := do
  let counter ← programCounter
  setProgramCounter (counter + 4)
  if instruction.condition.holds (← get).flags then perform instruction.operation

def executeWord (word : Int) : Action Unit := do
  match Instruction.decode word with
  | .ok instruction => execute instruction
  | .error failure => fail failure

def step : Action Unit := do
  let address ← programCounter
  let word ← readMemory address 4
  executeWord word

/-! ## Images -/

def loadImage (image : Image) : Action Unit := do
  let size := (← get).memory.size
  if size < image.length then
    fail (.fault (.imageTooLarge image.length size.toNat))
  else
    loadMemory (numbers image) 0
    if image.isElf then
      let entryPoint ← readMemory 0x18 4
      setProgramCounter entryPoint

end Action

end Bare

end Arm32
