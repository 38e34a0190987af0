import Arm32.Proofs.Assembly.Lines
import Arm32.Run.Cycle

namespace Arm32

/-! What an executed instruction adds to the record of a run: one to the count of steps,
and one row to the trace unless tracing is off or the trace is full. -/

namespace Trace

variable {options : Options} {machine : Machine} {step : Nat} {address word : Word}
  {instruction : Instruction} {trace next : Trace}

/-- The three ways in which a trace goes on after an instruction. -/
inductive Continues (options : Options) (machine : Machine) (step : Nat) (address word : Word)
    (instruction : Instruction) (trace : Trace) : Trace → Prop where
  | untraced (off : options.trace = false) :
      Continues options machine step address word instruction trace trace
  | full (on : options.trace = true) (reached : options.traceLimit ≤ trace.rows.size) :
      Continues options machine step address word instruction trace { trace with truncated := true }
  | added {text : String} (on : options.trace = true)
      (room : ¬ options.traceLimit ≤ trace.rows.size)
      (written : instruction.text (some address.toInt) = .ok text) :
      Continues options machine step address word instruction trace
        { trace with rows := trace.rows.push (row options machine step address word text) }

theorem extend_eq_ok_iff :
    trace.extend options machine step address word instruction = .ok next ↔
      Continues options machine step address word instruction trace next := by
  constructor
  · intro extended
    rw [extend] at extended
    split at extended
    case isTrue off =>
      cases extended
      exact .untraced (by simpa using off)
    case isFalse notOff =>
      have on : options.trace = true := by simpa using notOff
      split at extended
      case isTrue reached =>
        cases extended
        exact .full on reached
      case isFalse room =>
        cases written : instruction.text (some address.toInt) with
        | error misuse =>
            rw [written] at extended
            cases extended
        | ok text =>
            rw [written] at extended
            cases extended
            exact .added on room written
  · intro continues
    cases continues with
    | untraced off =>
        rw [extend, off]
        rfl
    | full on reached => rw [extend, on, Bool.not_true, if_neg Bool.false_ne_true, if_pos reached]
    | added on room written =>
        rw [extend, on, Bool.not_true, if_neg Bool.false_ne_true, if_neg room, written]

/-- A row can always be added for an instruction that has a text. -/
theorem extend_succeeds (trace : Trace) (options : Options) (machine : Machine) (step : Nat)
    (address word : Word) {instruction : Instruction} (wellFormed : instruction.WellFormed) :
    Succeeds (trace.extend options machine step address word instruction) := by
  rcases Instruction.text_succeeds wellFormed (some address.toInt) with ⟨text, written⟩
  cases tracing : options.trace with
  | false => exact ⟨_, extend_eq_ok_iff.mpr (.untraced tracing)⟩
  | true =>
      by_cases reached : options.traceLimit ≤ trace.rows.size
      · exact ⟨_, extend_eq_ok_iff.mpr (.full tracing reached)⟩
      · exact ⟨_, extend_eq_ok_iff.mpr (.added tracing reached written)⟩

/-- No row is ever taken out of a trace. -/
theorem Continues.keeps_rows
    (continues : Continues options machine step address word instruction trace next) :
    trace.rows.toList <+: next.rows.toList := by
  cases continues with
  | untraced => exact List.prefix_refl _
  | full => exact List.prefix_refl _
  | added =>
      rw [Array.toList_push]
      exact List.prefix_append _ _

end Trace

/-- A completed instruction changes nothing of a record but its count and its trace. -/
theorem Record.complete_eq_ok_iff {options : Options} {machine : Machine} {word : Word}
    {instruction : Instruction} {record completed : Record} :
    record.complete options machine word instruction = .ok completed ↔
      ∃ trace, record.trace.extend options machine (record.steps + 1) record.address word
          instruction = .ok trace ∧
        completed = { record with steps := record.steps + 1, trace } := by
  rcases record with ⟨address, word?, instruction?, steps, trace, calls⟩
  rw [complete]
  cases trace.extend options machine (steps + 1) address word instruction with
  | error misuse => simp
  | ok extended => simp [eq_comm]

theorem Record.complete_succeeds (record : Record) (options : Options) (machine : Machine)
    (word : Word) {instruction : Instruction} (wellFormed : instruction.WellFormed) :
    Succeeds (record.complete options machine word instruction) := by
  rcases record.trace.extend_succeeds options machine (record.steps + 1) record.address word
    wellFormed with ⟨extended, equal⟩
  exact ⟨_, complete_eq_ok_iff.mpr ⟨extended, equal, rfl⟩⟩

end Arm32
