import Arm32.CommandLine.Token
import Arm32.Numeral.Literal
import Arm32.Run.Options

namespace Arm32.CommandLine

/-! What a command line asks for. -/

structure Settings where
  image : String
  memorySize : Int := Memory.defaultSize
  start? : Option Int := none
  stepLimit : Int := 1000000
  breakpoints : List Int := []
  watched : List Int := []
  trace : Bool := false
  verbosity : Nat := 0
  /-- The switches that were given without their number. -/
  blanks : List Switch := []
deriving DecidableEq, Repr

/-- What to do: explain the switches, or run a program. -/
inductive Request where
  | help
  | run (settings : Settings)
deriving DecidableEq, Repr

namespace Settings

/-- The options of the run. Its output is echoed as it is written. -/
def options (settings : Settings) : Options where
  memorySize := settings.memorySize
  startAddress? := settings.start?
  stepLimit := settings.stepLimit
  trace := settings.trace
  watched := settings.watched
  breakpoints := settings.breakpoints
  echo := true

/-- No file has such a name. -/
def hasNullCharacter (settings : Settings) : Bool :=
  settings.image.toList.contains '\x00'

/-- A switch that has a number after all. -/
def fill (settings : Settings) (switch : Switch) : Settings :=
  { settings with blanks := settings.blanks.filter (· ≠ switch) }

/-- Gives a switch its number. The switches that collect numbers stay blank if
they were blank once. -/
def give (settings : Settings) (value : Int) (switch : Switch) : Settings :=
  match switch with
  | .memorySize => { settings.fill .memorySize with memorySize := value }
  | .start => { settings.fill .start with start? := some value }
  | .maxSteps => { settings.fill .maxSteps with stepLimit := value }
  | .breakpoint => { settings with breakpoints := settings.breakpoints ++ [value] }
  | .watch => { settings with watched := settings.watched ++ [value] }
  | .help | .trace | .verbose => settings

def leaveBlank (settings : Settings) (switch : Switch) : Settings :=
  { settings with blanks := switch :: settings.blanks }

/-- The switches whose numbers a run looks up, in order. Without memory nothing
else matters, and a run whose image does not fit does not start. -/
def lookedUp (settings : Settings) (imageSize : Nat) : List Switch :=
  if settings.memorySize ≤ 0 then [.breakpoint, .memorySize]
  else if imageSize ≤ settings.memorySize then
    [.breakpoint, .memorySize, .start, .maxSteps, .watch]
  else [.breakpoint, .memorySize, .watch]

/-- The first blank that a run of an image comes upon. -/
def missing? (settings : Settings) (imageSize : Nat) : Option Switch :=
  (settings.lookedUp imageSize).find? settings.blanks.contains

end Settings

/-- What has been read of a command line. -/
structure Reading where
  settings : Settings := { image := "" }
  hasImage : Bool := false
  /-- Arguments without a use, in order. -/
  unrecognized : List String := []

namespace Reading

def setImage (reading : Reading) (image : String) : Reading :=
  { reading with settings := { reading.settings with image }, hasImage := true }

def leave (reading : Reading) (argument : String) : Reading :=
  { reading with unrecognized := reading.unrecognized ++ [argument] }

/-- The number that a value stands for. The step limit is always decimal. -/
def readValue (switch : Switch) (text : String) : Except UsageError Int :=
  let value? :=
    if switch = .maxSteps then Numeral.readDecimal? text else Numeral.readLiteral? text
  match value? with
  | some value => .ok value
  | none => .error (.invalidValue switch text)

def assign (reading : Reading) (switch : Switch) (text : String) : Except UsageError Reading := do
  let value ← readValue switch text
  return { reading with settings := reading.settings.give value switch }

/-- Takes the value that is attached to a switch. Two dashes leave it blank. -/
def assignAttached (reading : Reading) (switch : Switch) (text : String) :
    Except UsageError Reading :=
  if text = "--" then .ok { reading with settings := reading.settings.leaveBlank switch }
  else reading.assign switch text

def turnOn (settings : Settings) : Switch → Settings
  | .trace => { settings with trace := true }
  | .verbose => { settings with verbosity := settings.verbosity + 1 }
  | _ => settings

/-- A switch of one letter and the switches behind it, each again a letter. What
begins with no such letter is a value, which the switch before it refuses. -/
def cluster (switch : Switch) : List Char → Except UsageError (List Switch)
  | [] => .error (.unexpectedValue switch "")
  | letter :: rest =>
      match Switch.ofSpelling? (String.ofList ['-', letter]), rest with
      | none, _ => .error (.unexpectedValue switch (String.ofList (letter :: rest)))
      | some next, [] => .ok [switch, next]
      | some next, more => (cluster next more).map (switch :: ·)

/-- The switches that one argument turns on. A long switch without a value
refuses one. -/
def turnedOn (switch : Switch) (long : Bool) (attached? : Option String) :
    Except UsageError (List Switch) :=
  match attached? with
  | none => .ok [switch]
  | some attached =>
      if long then .error (.unexpectedValue switch attached) else cluster switch attached.toList

def finish (reading : Reading) : Except UsageError Request :=
  if !reading.hasImage then .error .missingImage
  else if !reading.unrecognized.isEmpty then .error (.unrecognized reading.unrecognized)
  else .ok (.run reading.settings)

/-- Reads what is left of a command line. The first value that no switch takes
is the image; a separator beside it is part of it. -/
def read (reading : Reading) : List Token → Except UsageError Request
  | [] => reading.finish
  | .unknown argument :: rest => (reading.leave argument).read rest
  | .separator :: .value text :: rest =>
      if reading.hasImage then ((reading.leave "--").leave text).read rest
      else (reading.setImage text).read rest
  | .separator :: rest => (reading.leave "--").read rest
  | .value text :: .separator :: rest =>
      if reading.hasImage then ((reading.leave text).leave "--").read rest
      else (reading.setImage text).read rest
  | .value text :: rest =>
      if reading.hasImage then (reading.leave text).read rest
      else (reading.setImage text).read rest
  | .switch switch long attached? :: rest =>
      if switch.takesValue then
        match attached?, rest with
        | some attached, rest => do
            let reading ← reading.assignAttached switch attached
            reading.read rest
        | none, .value text :: rest => do
            let reading ← reading.assign switch text
            reading.read rest
        | none, _ => .error (.missingValue switch)
      else do
        let switches ← turnedOn switch long attached?
        if switches.contains .help then return .help
        let reading := { reading with settings := switches.foldl turnOn reading.settings }
        reading.read rest

end Reading

/-- Reads a command line without the name of the program. -/
def parse (arguments : List String) : Except UsageError Request := do
  let tokens ← Token.ofArguments arguments
  ({} : Reading).read tokens

end Arm32.CommandLine
