import Arm32.Instruction
import Arm32.Register

namespace Arm32

/-! Assembly text. An instruction is first turned into a line, a mnemonic with
its arguments in the order in which they are written; the text of the line is
its arguments' texts, one after the other. -/

namespace Assembly

def registerText (register : Register) : String :=
  match register.val with
  | 13 => "sp"
  | 14 => "lr"
  | 15 => "pc"
  | number => "r" ++ Numeral.write .decimal number

/-- The offset inside the brackets of a memory argument or after them. -/
inductive OffsetTerm where
  | immediate (sign : OffsetSign) (value : Int)
  | register (sign : OffsetSign) (register : Register)
  | shifted (sign : OffsetSign) (register : Register) (kind : ShiftKind) (amount : Int)
deriving DecidableEq, Repr

inductive Argument where
  | register (register : Register)
  | immediate (value : Int)
  | hexadecimal (value : Int)
  | shifted (register : Register) (kind : ShiftKind) (amount : Int)
  | shiftedBy (register : Register) (kind : ShiftKind) (amount : Register)
  | rotatedThroughCarry (register : Register)
  | memory (base : Register) (writeBack : Bool)
  | memoryBefore (base : Register) (offset : OffsetTerm) (writeBack : Bool)
  | memoryAfter (base : Register) (offset : OffsetTerm)
  | target (address : Word)
  | distance (offset : Int)
deriving DecidableEq, Repr

/-- A line of assembly. An operation without a meaning has no mnemonic. -/
inductive Line where
  | instruction (mnemonic : String) (setsFlags : Bool) (condition : Condition)
      (arguments : List Argument)
  | undefined
deriving DecidableEq, Repr

/-! ## Text -/

def signText : OffsetSign → String
  | .plus => ""
  | .minus => "-"

def shiftText (kind : ShiftKind) (amount : Int) : String :=
  kind.mnemonic ++ " #" ++ Numeral.write .decimal amount

def OffsetTerm.text : OffsetTerm → String
  | .immediate sign value => "#" ++ signText sign ++ Numeral.write .decimal value
  | .register sign name => signText sign ++ registerText name
  | .shifted sign name kind amount =>
      signText sign ++ registerText name ++ ", " ++ shiftText kind amount

def writeBackText (writeBack : Bool) : String :=
  if writeBack then "!" else ""

/-- Immediates below ten are written in decimal and the others in hexadecimal. -/
def immediateText (value : Int) : String :=
  "#" ++ Numeral.write (if value < 10 then .decimal else .hexadecimal) value

def Argument.text : Argument → String
  | .register name => registerText name
  | .immediate value => immediateText value
  | .hexadecimal value => "#" ++ Numeral.write .hexadecimal value
  | .shifted name kind amount => registerText name ++ ", " ++ shiftText kind amount
  | .shiftedBy name kind amount =>
      registerText name ++ ", " ++ kind.mnemonic ++ " " ++ registerText amount
  | .rotatedThroughCarry name => registerText name ++ ", rrx"
  | .memory base writeBack => "[" ++ registerText base ++ "]" ++ writeBackText writeBack
  | .memoryBefore base offset writeBack =>
      "[" ++ registerText base ++ ", " ++ offset.text ++ "]" ++ writeBackText writeBack
  | .memoryAfter base offset => "[" ++ registerText base ++ "], " ++ offset.text
  | .target address => Numeral.write .address address.toInt
  | .distance offset => Numeral.write .signedHexadecimal offset

def Line.text : Line → String
  | .instruction mnemonic setsFlags condition arguments =>
      mnemonic ++ (if setsFlags then "S" else "") ++ condition.suffix ++ " " ++
        ", ".intercalate (arguments.map Argument.text)
  | .undefined => "<Undefined>"

/-! ## Lines of instructions -/

def operatorMnemonic : DataOperator → String
  | .add => "ADD"
  | .addWithCarry => "ADC"
  | .subtract => "SUB"
  | .and => "AND"
  | .or => "ORR"

def loadMnemonic : LoadSize → String
  | .word => "LDR"
  | .byte => "LDRB"
  | .doubleWord => "LDRD"
  | .unsignedHalfWord => "LDRH"
  | .signedByte => "LDRSB"
  | .signedHalfWord => "LDRSH"

def storeMnemonic : StoreSize → String
  | .word => "STR"
  | .byte => "STRB"
  | .doubleWord => "STRD"
  | .halfWord => "STRH"

def namedRegister (number : Int) : Except Misuse Register :=
  match Register.named? number with
  | some register => .ok register
  | none => .error .unnamedRegister

/-- A number that a line shows in decimal. -/
def decimalNumber (value : Int) : Except Misuse Int :=
  (Numeral.Decimal.check value).map (·.value)

theorem decimalNumber_of_fits {value : Int} (fits : Numeral.FitsDecimal value) :
    decimalNumber value = .ok value := by
  rw [decimalNumber, Numeral.Decimal.check, dif_pos fits]
  rfl

def registerArgument (number : Int) : Except Misuse Argument :=
  (namedRegister number).map .register

/-- A left shift by zero is not shown, and a rotation by zero goes through the
carry flag. -/
def operandArgument : Operand → Except Misuse Argument
  | .immediate value _ _ =>
      (if value < 10 then decimalNumber value else .ok value).map .immediate
  | .register register kind (.immediate amount) =>
      if amount = 0 ∧ kind = .logicalLeft then (namedRegister register).map .register
      else if amount = 0 ∧ kind = .rotateRight then
        (namedRegister register).map .rotatedThroughCarry
      else do
        let amount ← decimalNumber amount
        let register ← namedRegister register
        return .shifted register kind amount
  | .register register kind (.register amount) => do
      let register ← namedRegister register
      let amount ← namedRegister amount
      return .shiftedBy register kind amount

def offsetTerm (sign : OffsetSign) : Offset → Except Misuse OffsetTerm
  | .immediate value => (decimalNumber value).map (.immediate sign)
  | .register register kind amount => do
      let register ← namedRegister register
      if amount = 0 ∧ kind = .logicalLeft then return .register sign register
      else
        let amount ← decimalNumber amount
        return .shifted sign register kind amount

/-- An immediate offset of zero is not shown if it is added before the access. -/
def addressArgument (transfer : Transfer) : Except Misuse Argument := do
  let base ← namedRegister transfer.baseRegister
  if transfer.offset = .immediate 0 ∧ transfer.indexing = .before then
    return .memory base transfer.writeBack
  else
    let offset ← offsetTerm transfer.sign transfer.offset
    match transfer.indexing with
    | .before => return .memoryBefore base offset transfer.writeBack
    | .after => return .memoryAfter base offset

/-- Where a branch goes, if the address of the branch is known. -/
def branchArgument (address? : Option Int) (offset : Int) : Argument :=
  match address? with
  | some address => .target (.ofInt (address + offset))
  | none => .distance offset

def transferArguments (transfer : Transfer) : Except Misuse (List Argument) := do
  let value ← registerArgument transfer.valueRegister
  let address ← addressArgument transfer
  return [value, address]

def line (instruction : Instruction) (address? : Option Int) : Except Misuse Line :=
  let written (mnemonic : String) (setsFlags : Bool) (arguments : List Argument) : Line :=
    .instruction mnemonic setsFlags instruction.condition arguments
  match instruction.operation with
  | .combine operator destination source operand setsFlags => do
      let destination ← registerArgument destination
      let source ← registerArgument source
      let operand ← operandArgument operand
      return written (operatorMnemonic operator) setsFlags [destination, source, operand]
  | .compare source operand => do
      let source ← registerArgument source
      let operand ← operandArgument operand
      return written "CMP" false [source, operand]
  | .move inverted destination operand setsFlags => do
      let destination ← registerArgument destination
      let operand ← operandArgument operand
      return written (if inverted then "MVN" else "MOV") setsFlags [destination, operand]
  | .moveHalf half destination immediate => do
      let destination ← registerArgument destination
      let mnemonic := match half with
        | .low => "MOVW"
        | .high => "MOVT"
      return written mnemonic false [destination, .hexadecimal immediate]
  | .branch offset link =>
      return written (if link then "BL" else "B") false [branchArgument address? offset]
  | .branchExchange register => do
      let register ← registerArgument register
      return written "BX" false [register]
  | .load size transfer => do
      return written (loadMnemonic size) false (← transferArguments transfer)
  | .store size transfer => do
      return written (storeMnemonic size) false (← transferArguments transfer)
  | .supervisorCall immediate =>
      return written "SVC" false [.hexadecimal immediate]
  | .undefined => return .undefined

end Assembly

namespace Instruction

/-- The assembly text of an instruction. Branch targets are absolute if the
address of the instruction is known. -/
def text (instruction : Instruction) (address? : Option Int) : Except Misuse String :=
  (Assembly.line instruction address?).map Assembly.Line.text

end Instruction

end Arm32
