import Arm32.Assembly
import Arm32.Machine
import Arm32.Run.Options

namespace Arm32

/-! The trace of a run: one row for each executed instruction, up to a limit. -/

/-- An executed instruction and the state that it left. -/
structure TraceRow where
  step : Nat
  address : Word
  word : Word
  text : String
  flags : Flags
  watched : List (Int × Word)
  registers? : Option (Vector Word 16)
  output? : Option String
deriving DecidableEq, Repr

structure Trace where
  rows : Array TraceRow := #[]
  /-- An instruction was left out because the limit had been reached. -/
  truncated : Bool := false
deriving DecidableEq, Repr

namespace Trace

def row (options : Options) (machine : Machine) (step : Nat) (address word : Word)
    (text : String) : TraceRow where
  step := step
  address := address
  word := word
  text := text
  flags := machine.flags
  watched := machine.memory.watch options.watched
  registers? := if options.traceRegisters then some machine.registers else none
  output? := machine.console?.bind (·.last?)

/-- Adds the row of the instruction that has just been executed. -/
def extend (trace : Trace) (options : Options) (machine : Machine) (step : Nat)
    (address word : Word) (instruction : Instruction) : Except Misuse Trace :=
  if !options.trace then .ok trace
  else if options.traceLimit ≤ trace.rows.size then .ok { trace with truncated := true }
  else
    match instruction.text (some address.toInt) with
    | .ok text =>
        .ok { trace with rows := trace.rows.push (row options machine step address word text) }
    | .error misuse => .error misuse

end Trace

end Arm32
