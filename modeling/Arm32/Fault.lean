import Arm32.Numeral
import Arm32.Word

namespace Arm32

/-! What can go wrong. A fault is a cause that a program can bring about; it
belongs to a kind, and a run reports it with the place where it happened. A
misuse is a request that only a caller of the library can make, such as naming
a register that does not exist. -/

inductive TransferDirection where
  | load
  | store
deriving DecidableEq, Repr

/-- A request that no decoded instruction makes. -/
inductive Misuse where
  | invalidRegister (register : Int)
  | unnamedRegister
  | nonpositiveMemorySize (size : Int)
  | negativeShift
  /-- A double word was asked for where only single accesses are listed. -/
  | unlistedAccess (direction : TransferDirection)
  /-- A number has too many figures for the message or the text that should show it. -/
  | numeralTooLong
deriving DecidableEq, Repr

/-- Decimal numerals are checked before they are written. -/
def Numeral.Decimal.check (value : Int) : Except Misuse Decimal :=
  if fits : FitsDecimal value then .ok ⟨value, fits⟩ else .error .numeralTooLong

theorem Word.fitsDecimal_toInt (word : Word) : Numeral.FitsDecimal word.toInt :=
  Numeral.fitsDecimal_of_word (Int.natCast_nonneg _) (by simp only [Word.toInt]; omega)

namespace Misuse

def numeralTooLongMessage : String :=
  s!"Exceeds the limit ({Numeral.write .decimal Numeral.maximalDecimalFigures} digits) for " ++
    "integer string conversion; use sys.set_int_max_str_digits() to increase the limit"

/-- A message that ends with a number. -/
def messageNaming (start : String) (value : Int) : String :=
  match Numeral.Decimal.check value with
  | .ok number => start ++ number.text
  | .error _ => numeralTooLongMessage

def message : Misuse → String
  | .invalidRegister register => messageNaming "Invalid register index: " register
  | .unnamedRegister => "list index out of range"
  | .nonpositiveMemorySize size => messageNaming "Memory size must be positive: " size
  | .negativeShift => "negative shift count"
  | .unlistedAccess .load => "<LoadDataSize.DOUBLE_WORD: 'double_word'>"
  | .unlistedAccess .store => "<StoreDataSize.DOUBLE_WORD: 'double_word'>"
  | .numeralTooLong => numeralTooLongMessage

end Misuse

/-! ## Kinds -/

/-- The kinds under which faults are reported. Causes arise under the five
specific kinds only; `general` covers every kind and `runtime` the last four. -/
inductive FaultKind where
  | general
  | decoding
  | runtime
  | unimplemented
  | memoryAccess
  | systemCall
  | stepLimit
deriving DecidableEq, Repr

namespace FaultKind

def all : List FaultKind :=
  [.general, .decoding, .runtime, .unimplemented, .memoryAccess, .systemCall, .stepLimit]

def name : FaultKind → String
  | .general => "EmulatorError"
  | .decoding => "DecodeError"
  | .runtime => "EmulatorRuntimeError"
  | .unimplemented => "UnimplementedInstruction"
  | .memoryAccess => "MemoryAccessFault"
  | .systemCall => "UnsupportedSyscall"
  | .stepLimit => "StepLimitExceeded"

def ofName? (text : String) : Option FaultKind :=
  all.find? (·.name == text)

/-- Whether faults of the kind come from executing a program. -/
def isRuntime : FaultKind → Bool
  | .general | .decoding => false
  | .runtime | .unimplemented | .memoryAccess | .systemCall | .stepLimit => true

end FaultKind

/-! ## Causes -/

/-- A fault shows in its message what it holds. An integer of any size that is shown in
decimal has been checked; the lengths and sizes are those of blocks that exist. -/
inductive Fault where
  | wordOutOfRange (value : Numeral.Decimal)
  | unknownCondition (code : Nat) (word : Word)
  | unknownOpcode (opcode : Nat) (word : Word)
  | unknownMedia (word : Word)
  | unknownMultiplyOrSwap (word : Word)
  | unknownInstruction (word : Word)
  | undefinedOperation (address : Word)
  | unpairedRegister (direction : TransferDirection) (register : Numeral.Decimal)
  | addressOutOfRange (address : Int) (width size : Nat)
  | unterminatedString (address : Int) (size : Nat)
  | imageTooLarge (length size : Nat)
  | unknownSystemCall (number : Word)
  | unsupportedDescriptor (descriptor : Word)
  | noConsole
  | stepLimitExceeded (limit : Numeral.Decimal)
deriving DecidableEq, Repr

namespace Fault

def kind : Fault → FaultKind
  | .wordOutOfRange _ | .unknownCondition _ _ | .unknownOpcode _ _ | .unknownMedia _
  | .unknownMultiplyOrSwap _ | .unknownInstruction _ => .decoding
  | .undefinedOperation _ | .unpairedRegister _ _ => .unimplemented
  | .addressOutOfRange _ _ _ | .unterminatedString _ _ | .imageTooLarge _ _ => .memoryAccess
  | .unknownSystemCall _ | .unsupportedDescriptor _ | .noConsole => .systemCall
  | .stepLimitExceeded _ => .stepLimit

def message : Fault → String
  | .wordOutOfRange value => "Instruction word out of range: " ++ value.text
  | .unknownCondition code word =>
      s!"Unknown condition {Numeral.write .code code} in {Numeral.write .word word.toInt}"
  | .unknownOpcode opcode word =>
      s!"Unknown opcode {Numeral.write .code opcode} in {Numeral.write .word word.toInt}"
  | .unknownMedia word => s!"Unknown media instruction {Numeral.write .word word.toInt}"
  | .unknownMultiplyOrSwap word =>
      s!"Unknown multiply or swap instruction {Numeral.write .word word.toInt}"
  | .unknownInstruction word => s!"Unknown instruction {Numeral.write .word word.toInt}"
  | .undefinedOperation _ => "Instruction Undefined() not implemented"
  | .unpairedRegister _ register =>
      "Double-word transfer needs an even register below r14, got r" ++ register.text
  | .addressOutOfRange address width size =>
      s!"Memory address out of range: {Numeral.write .address address} " ++
        s!"(width {Numeral.write .decimal width}, size {Numeral.write .hexadecimal size})"
  | .unterminatedString address _ =>
      s!"Unterminated string at {Numeral.write .address address}"
  | .imageTooLarge length size =>
      s!"Image of {Numeral.write .decimal length} bytes does not fit in " ++
        s!"{Numeral.write .decimal size} bytes of memory"
  | .unknownSystemCall number =>
      s!"Unsupported system call {Numeral.write .word number.toInt}"
  | .unsupportedDescriptor descriptor =>
      s!"write to unsupported file descriptor {Numeral.write .decimal descriptor.toInt}"
  | .noConsole => "write with no console attached"
  | .stepLimitExceeded limit => "Step limit exceeded: " ++ limit.text

/-- The address that could not be accessed. A string without an end fails at
the first address after memory, and so does an image that is too long. -/
def faultAddress? : Fault → Option Int
  | .addressOutOfRange address _ _ => some address
  | .unterminatedString _ size | .imageTooLarge _ size => some size
  | _ => none

def word? : Fault → Option Word
  | .unknownCondition _ word | .unknownOpcode _ word | .unknownMedia word
  | .unknownMultiplyOrSwap word | .unknownInstruction word => some word
  | _ => none

/-- The address a fault knows by itself, before a run adds its own. -/
def address : Fault → Word
  | .undefinedOperation address => address
  | _ => 0

end Fault

/-- Either way in which an operation on a machine ends without a result. -/
inductive Failure where
  | fault (fault : Fault)
  | misuse (misuse : Misuse)
deriving DecidableEq, Repr

/-- The failure by a fault that shows a number. A number that cannot be written takes the
place of the fault. -/
def Failure.naming (value : Int) (fault : Numeral.Decimal → Fault) : Failure :=
  match Numeral.Decimal.check value with
  | .ok number => .fault (fault number)
  | .error tooLong => .misuse tooLong

theorem Failure.naming_of_fits {value : Int} (fits : Numeral.FitsDecimal value)
    (fault : Numeral.Decimal → Fault) : naming value fault = .fault (fault ⟨value, fits⟩) := by
  rw [naming, Numeral.Decimal.check, dif_pos fits]

theorem Failure.naming_of_not_fits {value : Int} (tooLong : ¬ Numeral.FitsDecimal value)
    (fault : Numeral.Decimal → Fault) : naming value fault = .misuse .numeralTooLong := by
  rw [naming, Numeral.Decimal.check, dif_neg tooLong]

namespace Failure

variable {α : Type} {result : Except Fault α}

@[simp]
theorem mapError_eq_ok_iff {value : α} :
    result.mapError fault = .ok value ↔ result = .ok value := by
  cases result with
  | error cause => exact ⟨nofun, nofun⟩
  | ok found => exact ⟨fun same => by cases same; rfl, fun same => by cases same; rfl⟩

@[simp]
theorem mapError_eq_fault_iff {cause : Fault} :
    result.mapError fault = .error (fault cause) ↔ result = .error cause := by
  cases result with
  | error found => exact ⟨fun same => by cases same; rfl, fun same => by cases same; rfl⟩
  | ok value => exact ⟨nofun, nofun⟩

@[simp]
theorem mapError_ne_misuse {misuse : Misuse} :
    result.mapError fault ≠ .error (.misuse misuse) := by
  cases result <;> nofun

end Failure

/-! ## Diagnostics -/

/-- A fault as it is reported: what it was, and where the program stood. -/
structure Diagnostic where
  kind : FaultKind
  message : String
  step : Int := 0
  address : Int := 0
  word? : Option Int := none
  instructionText? : Option String := none
deriving DecidableEq, Repr

/-- The report of a fault outside any run. -/
def Fault.diagnostic (fault : Fault) : Diagnostic where
  kind := fault.kind
  message := fault.message
  address := fault.address.toInt
  word? := fault.word?.map Word.toInt

end Arm32
