import Arm32.Proofs.Execution.Enlarging
import Arm32.Proofs.Running.Cycles
import Arm32.Proofs.Running.Setup
import Arm32.Run

namespace Arm32

/-! Runs with memories of two sizes. Two runs of a program go side by side, the
machines alike after every cycle, until the one with the smaller memory reaches past
its end. The traces are told apart only by a watched word that one of them lacks. -/

/-- Every watched address has its word in memories of both sizes or of neither. -/
def Options.WatchesAlike (options : Options) (size largerSize : Int) : Prop :=
  ∀ address ∈ options.watched,
    (0 ≤ address ∧ address + 4 ≤ size) ↔ (0 ≤ address ∧ address + 4 ≤ largerSize)

/-! ## What is alike -/

/-- Traces of the same length, which are the same if the watched words are. -/
structure Trace.Enlarged (alike : Prop) (trace larger : Trace) : Prop where
  count : larger.rows.size = trace.rows.size
  truncated : larger.truncated = trace.truncated
  rows : alike → larger.rows = trace.rows

/-- Records that differ in their traces only. -/
structure Record.Enlarged (alike : Prop) (record larger : Record) : Prop where
  trace : record.trace.Enlarged alike larger.trace
  rest : larger = { record with trace := larger.trace }

structure Progress.Enlarged (size largerSize : Nat) (alike : Prop) (progress larger : Progress) :
    Prop where
  machine : progress.machine.Enlarged size largerSize larger.machine
  record : progress.record.Enlarged alike larger.record

section

variable {size largerSize : Nat} {options : Options} {alike : Prop}

/-! ## Traces -/

theorem Trace.enlarged_refl (trace : Trace) : trace.Enlarged alike trace :=
  ⟨rfl, rfl, fun _ => rfl⟩

theorem Trace.Enlarged.eq {trace larger : Trace} (enlarged : trace.Enlarged alike larger)
    (agree : alike) : larger = trace := by
  rcases trace with ⟨rows, truncated⟩
  rcases larger with ⟨largerRows, largerTruncated⟩
  cases enlarged.rows agree
  cases enlarged.truncated
  rfl

theorem Machine.Enlarged.watch {machine larger : Machine}
    (enlarged : machine.Enlarged size largerSize larger)
    (agree : options.WatchesAlike size largerSize) :
    larger.memory.watch options.watched = machine.memory.watch options.watched := by
  apply enlarged.memory.watch
  intro address listed inside
  have both := agree address listed
  simp only [Memory.Contains, enlarged.memory.size_eq, enlarged.memory.largerSize_eq] at inside ⊢
  exact both.mpr inside

theorem Trace.row_enlarged {machine larger : Machine}
    (enlarged : machine.Enlarged size largerSize larger)
    (agree : options.WatchesAlike size largerSize) (step : Nat) (address word : Word)
    (text : String) :
    row options larger step address word text = row options machine step address word text := by
  rw [row, row, enlarged.flags, enlarged.registers, enlarged.console, enlarged.watch agree]

theorem Trace.Enlarged.extend {machine largerMachine : Machine} {trace larger next : Trace}
    {step : Nat} {address word : Word} {instruction : Instruction}
    (enlarged : trace.Enlarged (options.WatchesAlike size largerSize) larger)
    (machines : machine.Enlarged size largerSize largerMachine)
    (extended : trace.extend options machine step address word instruction = .ok next) :
    ∃ largerNext,
      larger.extend options largerMachine step address word instruction = .ok largerNext ∧
        next.Enlarged (options.WatchesAlike size largerSize) largerNext := by
  have count := enlarged.count
  cases Trace.extend_eq_ok_iff.mp extended with
  | untraced off => exact ⟨larger, Trace.extend_eq_ok_iff.mpr (.untraced off), enlarged⟩
  | full on reached =>
      rw [← count] at reached
      exact ⟨_, Trace.extend_eq_ok_iff.mpr (.full on reached), count, rfl, enlarged.rows⟩
  | added on room written =>
      rw [← count] at room
      refine ⟨_, Trace.extend_eq_ok_iff.mpr (.added on room written), ?_, enlarged.truncated,
        fun agree => ?_⟩
      · rw [Array.size_push, Array.size_push, count]
      · rw [enlarged.rows agree, Trace.row_enlarged machines agree]

/-! ## Records -/

theorem Record.Enlarged.complete {machine largerMachine : Machine}
    {record larger next : Record} {word : Word} {instruction : Instruction}
    (enlarged : record.Enlarged (options.WatchesAlike size largerSize) larger)
    (machines : machine.Enlarged size largerSize largerMachine)
    (completed : record.complete options machine word instruction = .ok next) :
    ∃ largerNext, larger.complete options largerMachine word instruction = .ok largerNext ∧
      next.Enlarged (options.WatchesAlike size largerSize) largerNext := by
  rcases enlarged with ⟨traces, rest⟩
  rcases Record.complete_eq_ok_iff.mp completed with ⟨trace, extended, rfl⟩
  rcases traces.extend machines extended with ⟨largerTrace, largerExtended, nextTraces⟩
  rw [rest]
  exact ⟨_, Record.complete_eq_ok_iff.mpr ⟨largerTrace, largerExtended, rfl⟩, nextTraces, rfl⟩

namespace Progress.Enlarged

variable {progress larger : Progress}

theorem arrived (enlarged : Enlarged size largerSize alike progress larger) :
    progress.arrived.Enlarged alike larger.arrived where
  trace := enlarged.record.trace
  rest := by
    rw [Progress.arrived, Progress.arrived, enlarged.machine.programCounter, enlarged.record.rest]
    rfl

theorem fetched (enlarged : Enlarged size largerSize alike progress larger) (word : Word) :
    (progress.fetched word).Enlarged alike (larger.fetched word) where
  trace := enlarged.record.trace
  rest := by
    rw [Progress.fetched, enlarged.arrived.rest]
    rfl

theorem pendingCall (enlarged : Enlarged size largerSize alike progress larger)
    (instruction : Instruction) :
    larger.machine.pendingCall? instruction = progress.machine.pendingCall? instruction := by
  unfold Machine.pendingCall?
  rw [enlarged.machine.flags, enlarged.machine.operandValue]

theorem decoded (enlarged : Enlarged size largerSize alike progress larger) (word : Word)
    (instruction : Instruction) :
    (progress.decoded word instruction).Enlarged alike (larger.decoded word instruction) where
  trace := enlarged.record.trace
  rest := by
    rw [Progress.decoded, enlarged.pendingCall, (enlarged.fetched word).rest]
    rfl

/-! ## Cycles -/

theorem fetches (enlarged : Enlarged size largerSize alike progress larger) {word : Word}
    (fetches : Fetches options progress word) : Fetches options larger word := by
  rcases fetches with ⟨passes, value, reads, rfl⟩
  rw [← enlarged.machine.programCounter] at passes reads
  exact ⟨passes, value, enlarged.machine.memory.read reads, rfl⟩

end Progress.Enlarged

/-- What a cycle of the larger machine leads to. -/
def Cycle.Enlarged (size largerSize : Nat) (alike : Prop) : Cycle → Cycle → Prop
  | .continued progress, .continued larger => progress.Enlarged size largerSize alike larger
  | .ended ending progress, .ended largerEnding larger =>
      largerEnding = ending ∧ progress.Enlarged size largerSize alike larger
  | _, _ => False

/-- The run has failed at its memory. -/
def Ending.IsAccess (ending : Ending) : Prop :=
  ∃ fault, ending = .failed fault ∧ fault.kind = .memoryAccess

/-- A cycle leads to the same on the larger machine, unless it ends at the memory of
the smaller one. -/
theorem Progress.Leads.enlarged {progress larger : Progress} {next : Cycle}
    (related : progress.Enlarged size largerSize (options.WatchesAlike size largerSize) larger)
    (leads : Leads options progress next) :
    (∃ ending last, next = .ended ending last ∧ ending.IsAccess) ∨
      ∃ largerNext, Leads options larger largerNext ∧
        next.Enlarged size largerSize (options.WatchesAlike size largerSize) largerNext := by
  cases leads with
  | stopped reached =>
      rw [← related.machine.programCounter] at reached
      exact .inr ⟨_, .stopped reached, rfl, related.machine, related.arrived⟩
  | unread passes outside =>
      exact .inl ⟨_, _, rfl, _, rfl, Memory.read_error_kind outside⟩
  | undecoded fetches refused =>
      exact .inr ⟨_, .undecoded (related.fetches fetches) refused, rfl, related.machine,
        related.fetched _⟩
  | failed fetches accepted executed =>
      have follows := Action.execute_follows related.machine.clearLastWrite
        (Instruction.ofWord_wellFormed accepted)
      rw [executed] at follows
      rcases follows with access | ⟨largerAfter, largerExecuted, machines⟩
      · exact .inl ⟨_, _, rfl, _, rfl, access⟩
      · exact .inr ⟨_, .failed (related.fetches fetches) accepted largerExecuted, rfl, machines,
          related.decoded _ _⟩
  | completed fetches accepted executed recorded =>
      have follows := Action.execute_follows related.machine.clearLastWrite
        (Instruction.ofWord_wellFormed accepted)
      rw [executed] at follows
      rcases follows with ⟨largerAfter, largerExecuted, machines⟩
      rcases (related.decoded _ _).complete machines recorded with
        ⟨largerRecord, largerRecorded, records⟩
      exact .inr ⟨_, .completed (related.fetches fetches) accepted largerExecuted largerRecorded,
        machines, records⟩

/-! ## Runs -/

/-- Two runs go side by side until one of them ends, and then so does the other, unless
the first one has failed at its memory. -/
theorem Progress.run_enlarged {progress larger last : Progress} {ending : Ending} {limit : Nat}
    (related : progress.Enlarged size largerSize (options.WatchesAlike size largerSize) larger)
    (ran : progress.run options limit = .ok (ending, last)) :
    ending.IsAccess ∨
      ∃ largerLast, larger.run options limit = .ok (ending, largerLast) ∧
        last.Enlarged size largerSize (options.WatchesAlike size largerSize) largerLast := by
  refine run_related (Progress.Enlarged size largerSize (options.WatchesAlike size largerSize))
    Ending.IsAccess rfl (fun related => related.machine.halted) ?_ ?_ related ran
  · intro progress larger next related leads
    rcases leads.enlarged related with
      ⟨ended, stopped, impossible, -⟩ | ⟨largerNext, largerLeads, nexts⟩
    · cases impossible
    · cases largerNext with
      | continued largerNext => exact ⟨largerNext, largerLeads, nexts⟩
      | ended largerEnding largerStopped => exact nexts.elim
  · intro progress larger ending last related leads
    rcases leads.enlarged related with
      ⟨ended, stopped, same, access⟩ | ⟨largerNext, largerLeads, nexts⟩
    · cases same
      exact .inl access
    · cases largerNext with
      | continued largerNext => exact nexts.elim
      | ended largerEnding largerStopped =>
          rcases nexts with ⟨rfl, progresses⟩
          exact .inr ⟨largerStopped, largerLeads, progresses⟩

end

end Arm32
