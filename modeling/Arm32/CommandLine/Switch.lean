namespace Arm32.CommandLine

/-! The switches of the command line and how they are spelled. -/

inductive Switch where
  | help
  | memorySize
  | start
  | maxSteps
  | breakpoint
  | watch
  | trace
  | verbose
deriving DecidableEq, Repr

namespace Switch

/-- Every spelling, in the order in which ambiguous ones are listed. -/
def spellings : List (String × Switch) := [
  ("-h", .help),
  ("--help", .help),
  ("--memory-size", .memorySize),
  ("--start", .start),
  ("--max-steps", .maxSteps),
  ("--break", .breakpoint),
  ("--watch", .watch),
  ("--trace", .trace),
  ("-v", .verbose),
  ("--verbose", .verbose)]

def ofSpelling? (spelling : String) : Option Switch :=
  spellings.lookup spelling

/-- The spellings of one switch, as messages name it. -/
def name (switch : Switch) : String :=
  "/".intercalate ((spellings.filter (·.2 = switch)).map (·.1))

def takesValue : Switch → Bool
  | .memorySize | .start | .maxSteps | .breakpoint | .watch => true
  | .help | .trace | .verbose => false

/-- What the reports call the type of the switch's value. -/
def valueType : Switch → String
  | .maxSteps => "int"
  | _ => "_int"

end Switch

end Arm32.CommandLine
