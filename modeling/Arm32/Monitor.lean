import Arm32.Image
import Arm32.Machine.Execute

namespace Arm32

/-! The monitor: single operations on a machine, from outside any program. They
reach everything a machine has, and some of them can be asked for what no
instruction asks. -/

namespace Monitor

inductive Command where
  | read (address : Int) (width : Nat)
  | write (address : Int) (width : Nat) (value : Int)
  | load (block : List UInt8) (address : Int)
  | readString (address : Int)
  | watch (addresses : List Int)
  | getRegister (register : Int)
  | setRegister (register value : Int)
  | setProgramCounter (value : Int)
  | setFlags (negative? zero? carry? overflow? : Option Bool)
  | halt
  | loadImage (image : Image)
  | executeWords (words : List Int)
  | execute (instruction : Instruction)
  | step
  | systemCall
  | shiftRegister (register : Int) (kind : ShiftKind) (amount : ShiftAmount)
  | attachConsole (console? : Option Console)
  | writeText (text : String)
  | clearLastWrite
  | inspect
  | listRegisters
deriving Repr

inductive Reply where
  | done
  | number (value : Int)
  | bytes (block : List UInt8)
  | words (watched : List (Int × Word))
  | shifted (output : Shifter.Output)
  | loaded (image : Image.Loaded)
  | state (machine : Machine)
  | listing (registers flags : String)

def perform : Command → Action Reply
  | .read address width => return .number (← Action.readMemory address width)
  | .write address width value => do
      Action.writeMemory address width value
      return .done
  | .load block address => do
      Action.loadMemory block address
      return .done
  | .readString address => do
      return .bytes (← Action.liftFault ((← get).memory.readString address))
  | .watch addresses => return .words ((← get).memory.watch addresses)
  | .getRegister register => return .number (← Action.readRegister register).toInt
  | .setRegister register value => do
      Action.writeRegister register (Word.ofInt value)
      return .done
  | .setProgramCounter value => do
      modify (·.setProgramCounter (Word.ofInt value))
      return .number (← get).programCounter.toInt
  | .setFlags negative? zero? carry? overflow? => do
      Action.setFlags negative? zero? carry? overflow?
      return .done
  | .halt => do
      modify Machine.halt
      return .done
  | .loadImage image => return .loaded (← Action.loadImage image)
  | .executeWords words => do
      words.forM Action.executeWord
      return .done
  | .execute instruction => do
      Action.execute instruction
      return .done
  | .step => do
      Action.step
      return .done
  | .systemCall => do
      Action.systemCall
      return .done
  | .shiftRegister register kind amount =>
      return .shifted (← Action.shiftedRegister register kind amount)
  | .attachConsole console? => do
      modify ({ · with console? })
      return .done
  | .writeText text => do
      Action.writeText text
      return .done
  | .clearLastWrite => do
      modify Machine.clearLastWrite
      return .done
  | .inspect => return .state (← get)
  | .listRegisters => do
      let machine ← get
      return .listing machine.registerListing machine.flags.text

end Monitor

end Arm32
