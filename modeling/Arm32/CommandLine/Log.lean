import Arm32.Run

namespace Arm32.CommandLine

/-! The log of a run. The verbosity decides which of its lines are shown. -/

inductive Level where
  | debug
  | information
  | warning
deriving DecidableEq, Repr

namespace Level

def name : Level → String
  | .debug => "DEBUG"
  | .information => "INFO"
  | .warning => "WARNING"

def shown (level : Level) (verbosity : Nat) : Bool :=
  match level with
  | .warning => true
  | .information => 1 ≤ verbosity
  | .debug => 2 ≤ verbosity

end Level

inductive Source where
  | loader
  | runner
  | systemCalls
deriving DecidableEq, Repr

def Source.name : Source → String
  | .loader => "armemu.loader"
  | .runner => "armemu.runner"
  | .systemCalls => "armemu.syscalls"

structure LogLine where
  level : Level
  source : Source
  message : String
deriving DecidableEq, Repr

namespace LogLine

def callName : SystemCall → String
  | .exit => "execute_exit"
  | .write => "execute_write"

def decimal (value : Nat) : String :=
  Numeral.write .decimal value

def address (value : Int) : String :=
  Numeral.write .word value

def ofEvent : Event → LogLine
  | .seedingFailed message => ⟨.warning, .runner, "Invalid initial memory: " ++ message⟩
  | .loadingFailed message => ⟨.warning, .runner, "Failed to load image: " ++ message⟩
  | .loaded size => ⟨.information, .loader, s!"Loaded {decimal size} bytes"⟩
  | .elfEntry entry =>
      ⟨.information, .loader, "Image is ELF; entry point is " ++ address entry.toInt⟩
  | .started start => ⟨.information, .runner, "Starting at " ++ address start.toInt⟩
  | .called call =>
      ⟨.debug, .systemCalls, s!"system call {decimal call.number} ({callName call})"⟩
  | .breakpointReached place steps =>
      ⟨.information, .runner,
        s!"Breakpoint hit at {address place.toInt} after {decimal steps} steps"⟩
  | .failed diagnostic =>
      ⟨.warning, .runner,
        s!"{diagnostic.kind.name} at {address diagnostic.address}: {diagnostic.message}"⟩
  | .stopped status steps =>
      ⟨.information, .runner, s!"Stopped ({status}) after {decimal steps} steps"⟩

def text (line : LogLine) : String :=
  line.level.name ++ " " ++ line.source.name ++ ": " ++ line.message ++ "\n"

end LogLine

def logText (verbosity : Nat) (journal : List Event) : String :=
  String.join (((journal.map LogLine.ofEvent).filter (·.level.shown verbosity)).map LogLine.text)

end Arm32.CommandLine
