import Arm32.Machine.Execute
import Arm32.Run.Trace

namespace Arm32

/-! The cycle of a run: fetch, decode, execute, record. Beside the machine a run
keeps a record, which says where the program stands and what it has done. -/

/-- The record of a run. Its address is that of the current instruction, whose
word and meaning are known once they have been fetched and decoded. -/
structure Record where
  address : Word
  word? : Option Word := none
  instruction? : Option Instruction := none
  steps : Nat := 0
  trace : Trace := {}
  /-- The system calls that were made, the last one first. -/
  calls : List SystemCall := []

structure Progress where
  machine : Machine
  record : Record

inductive Ending where
  | halted
  | breakpoint
  | failed (fault : Fault)
deriving DecidableEq, Repr

inductive Cycle where
  | continued (progress : Progress)
  | ended (ending : Ending) (progress : Progress)

/-- The system call that an instruction is going to make, if it makes one that
exists. -/
def Machine.pendingCall? (machine : Machine) (instruction : Instruction) : Option SystemCall :=
  match instruction.operation with
  | .supervisorCall _ =>
      if instruction.condition.holds machine.flags then
        SystemCall.ofNumber? (machine.operandValue Register.callNumber)
      else none
  | _ => none

namespace Record

/-- Turns to the instruction at an address. -/
def arrive (record : Record) (address : Word) : Record :=
  { record with address, word? := none, instruction? := none }

def noteCall (record : Record) (call? : Option SystemCall) : Record :=
  { record with calls := call?.toList ++ record.calls }

/-- Counts an instruction that has been executed, and traces it. -/
def complete (record : Record) (options : Options) (machine : Machine) (word : Word)
    (instruction : Instruction) : Except Misuse Record :=
  match record with
  | ⟨address, word?, instruction?, steps, trace, calls⟩ =>
    match trace.extend options machine (steps + 1) address word instruction with
    | .ok trace => .ok ⟨address, word?, instruction?, steps + 1, trace, calls⟩
    | .error misuse => .error misuse

end Record

namespace Progress

/-- One cycle. A breakpoint ends the run before anything is fetched. -/
def cycle (options : Options) (progress : Progress) : Except Misuse Cycle :=
  match progress with
  | ⟨machine, record⟩ =>
    let address := machine.programCounter
    let record := record.arrive address
    if options.breakpoints.contains address.toInt then .ok (.ended .breakpoint ⟨machine, record⟩)
    else
      match machine.memory.read address.toInt 4 with
      | .error fault => .ok (.ended (.failed fault) ⟨machine, record⟩)
      | .ok value =>
        let word := Word.ofInt value
        let record := { record with word? := some word }
        match Instruction.ofWord word with
        | .error fault => .ok (.ended (.failed fault) ⟨machine, record⟩)
        | .ok instruction =>
          let record := { record with instruction? := some instruction }
          let record := record.noteCall (machine.pendingCall? instruction)
          match (Action.execute instruction).run machine.clearLastWrite with
          | .error (.fault fault) machine => .ok (.ended (.failed fault) ⟨machine, record⟩)
          | .error (.misuse misuse) _ => .error misuse
          | .ok () machine =>
            match record.complete options machine word instruction with
            | .ok record => .ok (.continued ⟨machine, record⟩)
            | .error misuse => .error misuse

/-- Cycles until the run is over, at most `limit` times. A machine that has not
halted by then has exceeded the step limit, which the fault names. -/
def run (options : Options) : (limit : Nat) → Progress → Except Misuse (Ending × Progress)
  | 0, progress =>
      if progress.machine.halted then .ok (.halted, progress)
      else
        match Failure.naming options.stepLimit .stepLimitExceeded with
        | .fault fault => .ok (.failed fault, progress)
        | .misuse misuse => .error misuse
  | limit + 1, progress =>
      if progress.machine.halted then .ok (.halted, progress)
      else
        match progress.cycle options with
        | .error misuse => .error misuse
        | .ok (.ended ending progress) => .ok (ending, progress)
        | .ok (.continued progress) => progress.run options limit

end Progress

end Arm32
