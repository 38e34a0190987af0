import Arm32.Machine

namespace Arm32

/-! System calls. Register 7 holds the number of the call, and its arguments are
in registers 0 and 1. -/

inductive SystemCall where
  | exit
  | write
deriving DecidableEq, Repr

namespace SystemCall

def number : SystemCall → Nat
  | .exit => 1
  | .write => 4

def ofNumber? (number : Word) : Option SystemCall :=
  if number = 1 then some .exit else if number = 4 then some .write else none

/-- The only file descriptor that can be written to. -/
def standardOutput : Word := 1

/-- The text of a string in memory: each byte is one character. -/
def textOf (bytes : List UInt8) : String :=
  String.ofList (bytes.map fun byte => Char.ofNat byte.toNat)

end SystemCall

namespace Action

def writeText (text : String) : Action Unit :=
  modify fun machine => { machine with console? := machine.console?.map (·.write text) }

def writeCall : Action Unit := do
  let descriptor ← readRegister 0
  let address ← readRegister 1
  if descriptor ≠ SystemCall.standardOutput then
    throw (.fault (.unsupportedDescriptor descriptor))
  else if (← get).console?.isNone then
    throw (.fault .noConsole)
  else
    let bytes ← liftFault ((← get).memory.readString address.toInt)
    writeText (SystemCall.textOf bytes)

def systemCall : Action Unit := do
  let number ← readRegister Register.callNumber.number
  match SystemCall.ofNumber? number with
  | some .exit => modify Machine.halt
  | some .write => writeCall
  | none => throw (.fault (.unknownSystemCall number))

end Action

end Arm32
