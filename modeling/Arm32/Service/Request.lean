import Arm32.Numeral.Literal
import Arm32.Service.Problem

namespace Arm32.Service

/-! Requests. What a request holds is left to a validator, which turns the data of a
request into its fields or says what is wrong with it. One validator is given here. It
checks the data as a whole: every field is read, and all problems are reported in the
order of the fields. Members that no field has a use for are ignored. -/

/-- The options of a request. Seeds stay under the texts of their addresses. -/
structure RequestOptions where
  memorySize : Int := 0x10000
  startAddress? : Option Int := none
  stepLimit : Int := 100000
  trace : Bool := false
  watched : List Int := []
  traceRegisters : Bool := true
  traceLimit : Int := 10000
  breakpoints : List Int := []
  seeds : List (String × Int) := []
deriving DecidableEq, Repr

structure Request where
  image : String
  options? : Option RequestOptions := none
deriving DecidableEq, Repr

/-- The options of a request; one without any has those by default. -/
def Request.options (request : Request) : RequestOptions :=
  request.options?.getD {}

abbrev Validator : Type := Json → Except (List Problem) Request

/-! ## Values -/

def readText (place : List Place) : Json → Checked String
  | .text value => ⟨value, []⟩
  | _ => .refuse "" place .notText

/-- A number that is too long to be written is not read either. -/
def readInteger (place : List Place) : Json → Checked Int
  | .number value =>
      if Numeral.FitsDecimal value then ⟨value, []⟩ else .refuse 0 place .integerTooLong
  | .bool value => ⟨value.toInt, []⟩
  | .decimal _ => .refuse 0 place .fractional
  | .text text =>
      match Numeral.readPlainDecimal? text with
      | some value => ⟨value, []⟩
      | none => .refuse 0 place .unreadableInteger
  | .null | .list _ | .object _ => .refuse 0 place .notInteger

/-- An integer between two bounds, which are allowed themselves. -/
def readBounded (least greatest : Int) (place : List Place) (json : Json) : Checked Int :=
  let checked := readInteger place json
  if checked.problems.isEmpty && checked.value < least then .refuse 0 place .tooSmall
  else if checked.problems.isEmpty && greatest < checked.value then .refuse 0 place .tooLarge
  else checked

/-- The words that are read as booleans, without regard to case. -/
def booleanWords : List (String × Bool) := [
  ("true", true), ("t", true), ("yes", true), ("y", true), ("on", true), ("1", true),
  ("false", false), ("f", false), ("no", false), ("n", false), ("off", false), ("0", false)]

def leastLong : Int := -0x8000000000000000

def greatestLong : Int := 0x7FFFFFFFFFFFFFFF

/-- Only the numbers zero and one are booleans; a number beyond 64 bits is not
even looked at as one. -/
def readBoolean (place : List Place) : Json → Checked Bool
  | .bool value => ⟨value, []⟩
  | .number value =>
      if value = 0 then ⟨false, []⟩
      else if value = 1 then ⟨true, []⟩
      else if leastLong ≤ value ∧ value ≤ greatestLong then
        .refuse false place .unreadableBoolean
      else .refuse false place .notBoolean
  | .text text =>
      match booleanWords.lookup text.toLower with
      | some value => ⟨value, []⟩
      | none => .refuse false place .unreadableBoolean
  | .null | .decimal _ | .list _ | .object _ => .refuse false place .notBoolean

def readOptional (read : List Place → Json → Checked α) (place : List Place) :
    Json → Checked (Option α)
  | .null => ⟨none, []⟩
  | json =>
      let checked := read place json
      ⟨some checked.value, checked.problems⟩

def readIntegers (place : List Place) : Json → Checked (List Int)
  | .list items =>
      let checked := items.mapIdx fun index item => readInteger (place ++ [.item index]) item
      ⟨checked.map (·.value), checked.flatMap (·.problems)⟩
  | _ => .refuse [] place .notList

def readDictionary (place : List Place) : Json → Checked (List (String × Int))
  | .object members =>
      let checked := members.map fun (name, value) =>
        (name, readInteger (place ++ [Place.member name]) value)
      ⟨checked.map fun (name, entry) => (name, entry.value),
        checked.flatMap fun (_, entry) => entry.problems⟩
  | _ => .refuse [] place .notDictionary

/-! ## Fields -/

/-- A member of an object; one that is absent has its default. -/
def readField (json : Json) (place : List Place) (name : String) (default : α)
    (read : List Place → Json → Checked α) : Checked α :=
  match json.member? name with
  | some value => read (place ++ [.member name]) value
  | none => ⟨default, []⟩

def wordMaximum : Int := 0xFFFFFFFF

def readOptions (place : List Place) (json : Json) : Checked RequestOptions :=
  match json with
  | .object _ =>
      let default : RequestOptions := {}
      let memorySize :=
        readField json place "memory_size" default.memorySize (readBounded 16 0x1000000)
      let startAddress? :=
        readField json place "start_address" none (readOptional (readBounded 0 wordMaximum))
      let stepLimit := readField json place "max_steps" default.stepLimit (readBounded 1 1000000)
      let trace := readField json place "trace" default.trace readBoolean
      let watched := readField json place "trace_watch" [] readIntegers
      let traceRegisters :=
        readField json place "trace_include_registers" default.traceRegisters readBoolean
      let traceLimit :=
        readField json place "max_trace_rows" default.traceLimit (readBounded 0 100000)
      let breakpoints := readField json place "breakpoints" [] readIntegers
      let seeds := readField json place "initial_memory" [] readDictionary
      { value := {
          memorySize := memorySize.value
          startAddress? := startAddress?.value
          stepLimit := stepLimit.value
          trace := trace.value
          watched := watched.value
          traceRegisters := traceRegisters.value
          traceLimit := traceLimit.value
          breakpoints := breakpoints.value
          seeds := seeds.value }
        problems :=
          memorySize.problems ++ startAddress?.problems ++ stepLimit.problems ++
            trace.problems ++ watched.problems ++ traceRegisters.problems ++
            traceLimit.problems ++ breakpoints.problems ++ seeds.problems }
  | _ => .refuse {} place .notObject

def readImage (json : Json) (place : List Place) : Checked String :=
  match json.member? "image" with
  | some value => readText (place ++ [.member "image"]) value
  | none => .refuse "" (place ++ [.member "image"]) .missing

def bodyPlace : List Place := [.member "body"]

def readRequest (body : Json) : Checked Request :=
  match body with
  | .object _ =>
      let image := readImage body bodyPlace
      let options? := readField body bodyPlace "options" none (readOptional readOptions)
      { value := { image := image.value, options? := options?.value }
        problems := image.problems ++ options?.problems }
  | .null => .refuse { image := "" } bodyPlace .missing
  | _ => .refuse { image := "" } bodyPlace .notObject

/-- A validator that takes the values of the declared types as they are, and of other
values those that stand for one exactly. Fractions stand for no integer here, although a
validator may take those without a fractional part. -/
def validate : Validator := fun body =>
  let checked := readRequest body
  if checked.problems.isEmpty then .ok checked.value else .error checked.problems

end Arm32.Service
