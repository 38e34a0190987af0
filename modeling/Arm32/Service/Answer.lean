import Arm32.Json
import Arm32.Run

namespace Arm32.Service

/-! Reports as structured data. -/

def encodeWord (word : Word) : Json :=
  .number word.toInt

def encodeNat (value : Nat) : Json :=
  .number value

def encodeWords (registers : Vector Word 16) : Json :=
  .list (registers.toList.map encodeWord)

def encodeFlags (flags : Flags) : Json :=
  .object [
    ("n", .bool flags.negative),
    ("z", .bool flags.zero),
    ("c", .bool flags.carry),
    ("v", .bool flags.overflow)]

def encodeMachine (machine : Machine) : Json :=
  .object [
    ("registers", encodeWords machine.registers),
    ("pc", encodeWord machine.programCounter),
    ("flags", encodeFlags machine.flags),
    ("halted", .bool machine.halted)]

/-- Watched words, under the texts of their addresses. -/
def encodeWatched (watched : List (Int × Word)) : Json :=
  .object (watched.map fun (address, word) =>
    (Numeral.write .address address, encodeWord word))

def encodeDiagnostic (diagnostic : Diagnostic) : Json :=
  .object [
    ("type", .text diagnostic.kind.name),
    ("message", .text diagnostic.message),
    ("step", .number diagnostic.step),
    ("addr", .number diagnostic.address),
    ("word", .ofOption .number diagnostic.word?),
    ("instruction_text", .ofOption .text diagnostic.instructionText?)]

/-- A row of the trace. Registers that were not asked for are left out. -/
def encodeRow (row : TraceRow) : Json :=
  .object ([
    ("step", encodeNat row.step),
    ("addr", encodeWord row.address),
    ("word", encodeWord row.word),
    ("instr_text", .text row.text),
    ("status", .text row.flags.text),
    ("mem", encodeWatched row.watched),
    ("out_text", .ofOption .text row.output?)] ++
    row.registers?.toList.map fun registers => ("registers", encodeWords registers))

/-- The members of a report. There is an error only if there is a diagnostic. -/
def resultMembers (report : Report) : List (String × Json) :=
  [("status", .text report.outcome.status),
    ("output_text", .text report.output),
    ("steps_executed", encodeNat report.steps),
    ("final_state", encodeMachine report.machine),
    ("trace_watch", .list (report.watchedAddresses.map .number)),
    ("trace", .list (report.trace.rows.toList.map encodeRow)),
    ("watched", encodeWatched report.watched),
    ("debug_registers", .text report.machine.registerListing),
    ("debug_status", .text report.machine.flags.text),
    ("trace_truncated", .bool report.trace.truncated)] ++
    report.outcome.diagnostic?.toList.map fun diagnostic => ("error", encodeDiagnostic diagnostic)

/-! ## Declared answers

An answer has the members that are declared for it, each of its type. -/

inductive MemberType where
  | text
  | integer
  | bool
  | object
  | list (item : MemberType)
  | dictionary (value : MemberType)
  | optional (present : MemberType)
deriving Repr

def MemberType.admits : MemberType → Json → Bool
  | .text, .text _ => true
  | .integer, .number _ => true
  | .bool, .bool _ => true
  | .object, .object _ => true
  | .list item, .list items => items.all item.admits
  | .dictionary value, .object members => members.all fun member => value.admits member.2
  | .optional _, .null => true
  | .optional present, json => present.admits json
  | _, _ => false

structure AnswerField where
  name : String
  type : MemberType
  /-- What stands for the member if a report has none. -/
  default? : Option Json := none

def answerFields : List AnswerField := [
  { name := "status", type := .text },
  { name := "output_text", type := .text },
  { name := "steps_executed", type := .integer },
  { name := "final_state", type := .object },
  { name := "trace_watch", type := .list .integer },
  { name := "trace", type := .list .object },
  { name := "watched", type := .dictionary .integer },
  { name := "debug_registers", type := .text },
  { name := "debug_status", type := .text },
  { name := "trace_truncated", type := .bool, default? := some (.bool false) },
  { name := "error", type := .optional .object, default? := some .null }]

/-- Why there is no answer, not even a refusal. -/
inductive Breakdown where
  | misuse (misuse : Misuse)
  | missingMember (name : String)
  | unsuitableMember (name : String)
deriving DecidableEq, Repr

def answerMember (members : List (String × Json)) (field : AnswerField) :
    Except Breakdown (String × Json) :=
  match members.lookup field.name, field.default? with
  | some value, _ =>
      if field.type.admits value then .ok (field.name, value)
      else .error (.unsuitableMember field.name)
  | none, some value => .ok (field.name, value)
  | none, none => .error (.missingMember field.name)

/-- The declared members of an answer, with the values that a report gives them. -/
def answerMembers (members : List (String × Json)) : Except Breakdown (List (String × Json)) :=
  answerFields.mapM (answerMember members)

end Arm32.Service
