import Arm32.CommandLine.Log
import Arm32.CommandLine.Path
import Arm32.CommandLine.Settings

namespace Arm32.CommandLine

/-! The command line as a function: what a call of the program writes and with
which code it exits. -/

structure Transcript where
  exitCode : Nat
  output : String := ""
  errors : String := ""
deriving DecidableEq, Repr

def programName : String := "armemu"

def helpText : String :=
  "usage: armemu IMAGE [--memory-size N] [--start ADDR] [--max-steps N]\n" ++
  "              [--break ADDR]... [--watch ADDR]... [--trace] [-v]\n"

def helpTranscript : Transcript where
  exitCode := 0
  output := helpText

/-- Why a call breaks down instead of reporting anything. -/
inductive Breakdown where
  | misuse (misuse : Misuse)
  | missingNumber (switch : Switch)
  | nullCharacter
deriving DecidableEq, Repr

def Breakdown.message : Breakdown → String
  | .misuse cause => cause.message
  | .missingNumber switch => "no number for " ++ switch.name
  | .nullCharacter => "embedded null byte"

def breakdown (cause : Breakdown) : Transcript where
  exitCode := 1
  errors := programName ++ ": " ++ cause.message ++ "\n"

def usageFailure (error : UsageError) : Transcript where
  exitCode := 2
  errors := programName ++ ": error: " ++ error.message ++ "\n"

def readFailure (image : String) (path : Path) (failure : ReadFailure) : Transcript where
  exitCode := 1
  errors := "error: cannot read " ++ image ++ ": " ++ failure.text ++ ": " ++
    Text.quoted path.text ++ "\n"

/-! ## Reports -/

/-- Spaces in front of a text up to a width. -/
def alignRight (width : Nat) (text : String) : String :=
  String.ofList (List.replicate (width - text.length) ' ') ++ text

def traceLine (row : TraceRow) : String :=
  alignRight 8 (Numeral.write .decimal row.step) ++ "  " ++
    Numeral.write .word row.address.toInt ++ "  " ++ Numeral.write .word row.word.toInt ++ "  " ++
    row.flags.text ++ "  " ++ row.text ++ "\n"

def traceText (trace : Trace) : String :=
  String.join (trace.rows.toList.map traceLine) ++
    if trace.truncated then
      "(trace stopped after " ++ Numeral.write .decimal trace.rows.size ++ " rows)\n"
    else ""

def watchedLine (entry : Int × Word) : String :=
  "  " ++ Numeral.write .address entry.1 ++ ": " ++ Numeral.write .word entry.2.toInt ++ "\n"

def watchedText (watched : List (Int × Word)) : String :=
  if watched.isEmpty then "" else "Watched memory:\n" ++ String.join (watched.map watchedLine)

def stateText (report : Report) : String :=
  "Registers:\n" ++ report.machine.registerListing ++ "\n" ++ report.machine.flags.text ++ "\n" ++
    watchedText report.watched ++
    "Executed " ++ Numeral.write .decimal report.steps ++ " instructions.\n"

/-- The program's own output, on a line of its own. -/
def outputText (report : Report) : String :=
  let output := report.output
  if output.isEmpty || output.endsWith "\n" then output else output ++ "\n"

def breakpointText (report : Report) : String :=
  match report.outcome with
  | .interrupted =>
      "Breakpoint at " ++ Numeral.write .word report.machine.programCounter.toInt ++ "\n"
  | _ => ""

/-- A diagnostic on one line, with the word and the instruction if they are known. -/
def diagnosticText (diagnostic : Diagnostic) : String :=
  let word := match diagnostic.word? with
    | some word => " (" ++ Numeral.write .word word ++ ")"
    | none => ""
  let instruction := match diagnostic.instructionText? with
    | some text => if text.isEmpty then "" else " [" ++ text ++ "]"
    | none => ""
  "error: " ++ diagnostic.kind.name ++ " at " ++ Numeral.write .word diagnostic.address ++
    word ++ instruction ++ ": " ++ diagnostic.message ++ "\n"

def reportTranscript (settings : Settings) (path : Path) (size : Nat) (report : Report) :
    Transcript where
  exitCode := if report.outcome.diagnostic?.isSome then 1 else 0
  output :=
    "Read " ++ Numeral.write .decimal size ++ " bytes from " ++ path.name ++ "\n" ++
      outputText report ++ (if settings.trace then traceText report.trace else "") ++
      breakpointText report ++ stateText report
  errors :=
    logText settings.verbosity report.journal ++
      ((report.outcome.diagnostic?.map diagnosticText).getD "")

/-- What a run writes, once its file has been read or not. -/
def runTranscript (settings : Settings) (file : Except ReadFailure Image) :
    Except Breakdown Transcript :=
  let path := Path.ofText settings.image
  match file with
  | .error failure => .ok (readFailure settings.image path failure)
  | .ok image =>
    match settings.missing? image.length with
    | some switch => .error (.missingNumber switch)
    | none =>
      match Run.program image settings.options with
      | .ok report => .ok (reportTranscript settings path image.length report)
      | .error misuse => .error (.misuse misuse)

/-- A call of the program in a directory. -/
def call (directory : Directory) (arguments : List String) : Except Breakdown Transcript :=
  match parse arguments with
  | .error error => .ok (usageFailure error)
  | .ok .help => .ok helpTranscript
  | .ok (.run settings) =>
      if settings.hasNullCharacter then .error .nullCharacter
      else runTranscript settings (directory.read (Path.ofText settings.image))

end Arm32.CommandLine
