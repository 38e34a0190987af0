import Arm32.Image
import Arm32.Run.Cycle

namespace Arm32

/-! Runs of programs. A run seeds the memory, loads the image over the seeds,
and cycles until the machine halts, a breakpoint is reached or something fails. -/

inductive Outcome where
  | finished
  | interrupted
  | failed (diagnostic : Diagnostic)
deriving DecidableEq, Repr

namespace Outcome

def status : Outcome → String
  | .finished => "ok"
  | .interrupted => "break"
  | .failed _ => "error"

def diagnostic? : Outcome → Option Diagnostic
  | .failed diagnostic => some diagnostic
  | _ => none

end Outcome

/-- What a run does that a log can show. -/
inductive Event where
  | seedingFailed (message : String)
  | loadingFailed (message : String)
  | loaded (size : Nat)
  | elfEntry (address : Word)
  | started (address : Word)
  | called (call : SystemCall)
  | breakpointReached (address : Word) (steps : Nat)
  | failed (diagnostic : Diagnostic)
  | stopped (status : String) (steps : Nat)
deriving DecidableEq, Repr

structure Report where
  outcome : Outcome
  machine : Machine
  steps : Nat
  trace : Trace
  watchedAddresses : List Int
  journal : List Event

namespace Report

def output (report : Report) : String :=
  report.machine.output

/-- The copy of the output, if one was asked for. -/
def echo? (report : Report) : Option String :=
  report.machine.console?.bind (·.copy?)

def watched (report : Report) : List (Int × Word) :=
  report.machine.memory.watch report.watchedAddresses

end Report

namespace Run

/-- A machine as every run begins with it. -/
def freshMachine (options : Options) (memory : Memory) : Machine where
  memory := memory
  console? := some { copy? := if options.echo then some "" else none }

/-- The report of a run that never started. -/
def abandoned (options : Options) (fault : Fault) (machine : Machine) (event : Event) :
    Report where
  outcome := .failed fault.diagnostic
  machine := machine
  steps := 0
  trace := {}
  watchedAddresses := options.watched
  journal := [event]

/-- A fault with the place where it ended the run. -/
def locate (fault : Fault) (record : Record) : Except Misuse Diagnostic := do
  let text? ← match record.instruction? with
    | some instruction => (instruction.text (some record.address.toInt)).map some
    | none => pure none
  return {
    kind := fault.kind
    message := fault.message
    step := record.steps
    address := record.address.toInt
    word? := (fault.word?.or record.word?).map Word.toInt
    instructionText? := text? }

def outcomeOf (ending : Ending) (record : Record) : Except Misuse Outcome :=
  match ending with
  | .halted => .ok .finished
  | .breakpoint => .ok .interrupted
  | .failed fault => (locate fault record).map .failed

def closingEvents (outcome : Outcome) (record : Record) : List Event :=
  let final : List Event := [.stopped outcome.status record.steps]
  match outcome with
  | .finished => final
  | .interrupted => .breakpointReached record.address record.steps :: final
  | .failed diagnostic => .failed diagnostic :: final

def openingEvents (loaded : Image.Loaded) (start : Word) : List Event :=
  .loaded loaded.size ::
    ((if loaded.isElf then [.elfEntry loaded.entryPoint] else []) ++ [.started start])

/-- Runs a machine on which the image has been loaded. -/
def resume (options : Options) (loaded : Image.Loaded) (machine : Machine) :
    Except Misuse Report := do
  let start := machine.programCounter
  let (ending, progress) ←
    Progress.run options options.stepLimit.toNat ⟨machine, { address := start }⟩
  let outcome ← outcomeOf ending progress.record
  return {
    outcome
    machine := progress.machine
    steps := progress.record.steps
    trace := progress.record.trace
    watchedAddresses := options.watched
    journal := openingEvents loaded start ++
      progress.record.calls.reverse.map .called ++ closingEvents outcome progress.record }

def place (options : Options) (machine : Machine) : Machine :=
  match options.startAddress? with
  | some address => machine.setProgramCounter (Word.ofInt address)
  | none => machine

/-- Runs an image. The only misuses that can happen are a memory size that is not positive,
and a step limit that is reached and too long to be named. -/
def program (image : Image) (options : Options) : Except Misuse Report :=
  match Memory.create options.memorySize options.seeds with
  | .error (.misuse misuse) => .error misuse
  | .error (.fault fault) =>
      let machine := freshMachine options (.zeros options.memorySize.toNat)
      .ok (abandoned options fault machine (.seedingFailed fault.message))
  | .ok memory =>
      match (Action.loadImage image).run (freshMachine options memory) with
      | .error (.misuse misuse) _ => .error misuse
      | .error (.fault fault) machine =>
          .ok (abandoned options fault machine (.loadingFailed fault.message))
      | .ok loaded machine => resume options loaded (place options machine)

end Run

end Arm32
