import Arm32.Proofs.Running.Limits
import Arm32.Proofs.Service.Requests
import Arm32.Service
import Mathlib.Data.List.Forall2

namespace Arm32.Service

/-! What an answer shows of a report. All members of the report are in it, nothing else is
but an error that is null, and each of its numbers can be written. -/

/-! ## Parts of answers -/

structure ShowsFlags (json : Json) (flags : Flags) : Prop where
  negative : json.member? "n" = some (.bool flags.negative)
  zero : json.member? "z" = some (.bool flags.zero)
  carry : json.member? "c" = some (.bool flags.carry)
  overflow : json.member? "v" = some (.bool flags.overflow)

/-- A list of words, in their order. -/
def ShowsWords (json : Json) (words : List Word) : Prop :=
  json = .list (words.map fun word => .number word.toInt)

/-- Words under the numerals of their addresses. -/
def ShowsWatched (json : Json) (watched : List (Int × Word)) : Prop :=
  json = .object (watched.map fun (address, word) =>
    (Numeral.write .address address, .number word.toInt))

structure ShowsMachine (json : Json) (machine : Machine) : Prop where
  registers : ∃ words ∈ json.member? "registers", ShowsWords words machine.registers.toList
  programCounter : json.member? "pc" = some (.number machine.programCounter.toInt)
  flags : ∃ flags ∈ json.member? "flags", ShowsFlags flags machine.flags
  halted : json.member? "halted" = some (.bool machine.halted)

structure ShowsRow (json : Json) (row : TraceRow) : Prop where
  step : json.member? "step" = some (.number row.step)
  address : json.member? "addr" = some (.number row.address.toInt)
  word : json.member? "word" = some (.number row.word.toInt)
  text : json.member? "instr_text" = some (.text row.text)
  flags : json.member? "status" = some (.text row.flags.text)
  watched : ∃ watched ∈ json.member? "mem", ShowsWatched watched row.watched
  output : json.member? "out_text" = some (row.output?.elim .null .text)
  absent : row.registers? = none → json.member? "registers" = none
  registers : ∀ registers ∈ row.registers?,
    ∃ words ∈ json.member? "registers", ShowsWords words registers.toList

structure ShowsDiagnostic (json : Json) (diagnostic : Diagnostic) : Prop where
  kind : json.member? "type" = some (.text diagnostic.kind.name)
  message : json.member? "message" = some (.text diagnostic.message)
  step : json.member? "step" = some (.number diagnostic.step)
  address : json.member? "addr" = some (.number diagnostic.address)
  word : json.member? "word" = some (diagnostic.word?.elim .null .number)
  text : json.member? "instruction_text" = some (diagnostic.instructionText?.elim .null .text)

/-- The members of an answer. -/
def answerNames : List String := [
  "status", "output_text", "steps_executed", "final_state", "trace_watch", "trace", "watched",
  "debug_registers", "debug_status", "trace_truncated", "error"]

/-- An answer that shows a report, and nothing else. -/
structure ShowsReport (json : Json) (report : Report) : Prop where
  names : json.names = answerNames
  finished : json.member? "status" = some (.text "ok") ↔ report.outcome = .finished
  interrupted : json.member? "status" = some (.text "break") ↔ report.outcome = .interrupted
  failed : json.member? "status" = some (.text "error") ↔
    ∃ diagnostic, report.outcome = .failed diagnostic
  output : json.member? "output_text" = some (.text report.output)
  steps : json.member? "steps_executed" = some (.number report.steps)
  machine : ∃ state ∈ json.member? "final_state", ShowsMachine state report.machine
  watchedAddresses :
    json.member? "trace_watch" = some (.list (report.watchedAddresses.map .number))
  rows : ∃ rows, json.member? "trace" = some (.list rows) ∧
    List.Forall₂ ShowsRow rows report.trace.rows.toList
  watched : ∃ watched ∈ json.member? "watched", ShowsWatched watched report.watched
  registerListing :
    json.member? "debug_registers" = some (.text report.machine.registerListing)
  flagText : json.member? "debug_status" = some (.text report.machine.flags.text)
  truncated : json.member? "trace_truncated" = some (.bool report.trace.truncated)
  unfailed : report.outcome.diagnostic? = none → json.member? "error" = some .null
  diagnosed : ∀ diagnostic ∈ report.outcome.diagnostic?,
    ∃ error ∈ json.member? "error", ShowsDiagnostic error diagnostic

/-- The members of the answer that shows a report. -/
def shownMembers (report : Report) : List (String × Json) :=
  resultMembers report ++
    if report.outcome.diagnostic?.isNone then [("error", .null)] else []

section Writable

open Json

end Writable

end Arm32.Service
