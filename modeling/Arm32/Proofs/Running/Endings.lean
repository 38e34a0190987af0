import Arm32.Proofs.Execution.Branches
import Arm32.Proofs.Running.History

namespace Arm32

/-! What cycles do to what a run shows. A completed cycle adds to the count, the trace and
the output, and halts the machine only by one of the two operations that halt. A cycle
that ends a run leaves all of that as it found it. -/

namespace Machine

theorem output_clearLastWrite (machine : Machine) :
    machine.clearLastWrite.output = machine.output := by
  rw [output, output, clearLastWrite]
  cases machine.console? <;> rfl

theorem output_of_console {machine after : Machine} (same : after.console? = machine.console?) :
    after.output = machine.output := by
  rw [output, output, same]

theorem output_of_written {machine after : Machine} {text : String}
    (written : after.console? = machine.console?.map (·.write text)) :
    ∃ rest, (rest = "" ∨ rest = text) ∧ after.output = machine.output ++ rest := by
  rw [output, output, written]
  cases machine.console? with
  | none => exact ⟨"", .inl rfl, rfl⟩
  | some console => exact ⟨text, .inr rfl, rfl⟩

end Machine

/-! ## Words that halt -/

/-- A branch whose field counts two words back, which is a branch to itself, or a call
made with the number of the call that exits. -/
def Machine.HaltsAt (machine : Machine) (word : Word) (operation : Operation) : Prop :=
  (∃ offset link, operation = .branch offset link ∧ word.extractLsb 23 0 = 0xFFFFFE) ∨
    ∃ immediate, operation = .supervisorCall immediate ∧
      machine.registers.get Register.callNumber = 1

theorem Operation.halts_iff {word : Word} {operation : Operation} {machine : Machine}
    (decoded : Instruction.operationOf word = .ok operation) :
    operation.Halts machine ↔ machine.HaltsAt word operation := by
  cases operation with
  | branch offset link =>
      have zero := offset_eq_zero_iff (Instruction.eq_branch_of_operationOf decoded)
      constructor
      · intro still
        exact .inl ⟨offset, link, rfl, zero.mp still⟩
      · rintro (⟨offset, link, equal, field⟩ | ⟨immediate, equal, -⟩)
        · exact zero.mpr field
        · cases equal
  | supervisorCall immediate =>
      constructor
      · intro exits
        exact .inr ⟨immediate, rfl, exits⟩
      · rintro (⟨offset, link, equal, -⟩ | ⟨immediate, equal, exits⟩)
        · cases equal
        · exact exits
  | _ => simp [Halts, Machine.HaltsAt]

/-- The word of a step and the instruction that it encodes. -/
def Step.Executes (step : Step) (word : Word) (instruction : Instruction) : Prop :=
  (∃ value, step.before.machine.memory.read step.address.toInt 4 = .ok value ∧
    word = Word.ofInt value) ∧ Instruction.ofWord word = .ok instruction

/-- A step whose instruction halts the machine, its condition being met. -/
def Step.Halts (step : Step) : Prop :=
  ∃ word instruction, step.Executes word instruction ∧
    instruction.condition.holds step.before.machine.flags = true ∧
    step.before.machine.HaltsAt word instruction.operation

theorem Step.executes_unique {step : Step} {word other : Word}
    {instruction otherInstruction : Instruction} (executes : step.Executes word instruction)
    (again : step.Executes other otherInstruction) :
    other = word ∧ otherInstruction = instruction := by
  rcases executes with ⟨⟨value, reads, rfl⟩, accepted⟩
  rcases again with ⟨⟨otherValue, readsAgain, rfl⟩, acceptedAgain⟩
  rw [reads] at readsAgain
  cases readsAgain
  rw [accepted] at acceptedAgain
  cases acceptedAgain
  exact ⟨rfl, rfl⟩

namespace Progress

variable {options : Options} {progress next last : Progress} {ending : Ending}

/-- What a run shows of its progress only ever grows. -/
structure Extends (progress later : Progress) : Prop where
  steps : progress.record.steps ≤ later.record.steps
  rows : progress.record.trace.rows.toList <+: later.record.trace.rows.toList
  output : ∃ rest, later.machine.output = progress.machine.output ++ rest

theorem extends_refl (progress : Progress) : progress.Extends progress :=
  ⟨Nat.le_refl _, List.prefix_refl _, "", by rw [String.append_empty]⟩

theorem Extends.trans {middle : Progress} (first : progress.Extends middle)
    (second : middle.Extends last) : progress.Extends last := by
  rcases first.output with ⟨firstRest, firstOutput⟩
  rcases second.output with ⟨secondRest, secondOutput⟩
  refine ⟨Nat.le_trans first.steps second.steps, first.rows.trans second.rows,
    firstRest ++ secondRest, ?_⟩
  rw [secondOutput, firstOutput, String.append_assoc]

/-! ## Cycles that are completed -/

theorem Leads.extends_continued (leads : Leads options progress (.continued next)) :
    progress.Extends next := by
  have counted := leads.steps_continued
  cases leads with
  | completed fetches accepted executed recorded =>
      rcases Record.complete_eq_ok_iff.mp recorded with ⟨trace, extended, rfl⟩
      refine ⟨by omega, (Trace.extend_eq_ok_iff.mp extended).keeps_rows, ?_⟩
      rw [← progress.machine.output_clearLastWrite]
      rcases Action.execute_console (Instruction.ofWord_wellFormed accepted) executed with
        same | ⟨-, bytes, -, written⟩
      · exact ⟨"", by rw [Machine.output_of_console same, String.append_empty]⟩
      · rcases Machine.output_of_written written with ⟨rest, -, extended⟩
        exact ⟨rest, extended⟩

theorem Leads.halted_iff (leads : Leads options progress (.continued next))
    (running : progress.machine.halted = false) :
    next.machine.halted = true ↔ Step.Halts ⟨progress, next⟩ := by
  cases leads with
  | @completed word instruction after record fetches accepted executed recorded =>
      have stillRunning : progress.machine.clearLastWrite.halted = false := running
      have halts := Action.execute_halted_iff (Instruction.ofWord_wellFormed accepted)
        stillRunning executed
      rw [Operation.halts_iff (Instruction.ofWord_eq_ok.mp accepted).2] at halts
      have executes : Step.Executes ⟨progress, ⟨after, record⟩⟩ word instruction :=
        ⟨fetches.reads, accepted⟩
      constructor
      · intro stopped
        exact ⟨word, instruction, executes, halts.mp stopped⟩
      · rintro ⟨other, otherInstruction, again, stops⟩
        rcases Step.executes_unique executes again with ⟨rfl, rfl⟩
        exact halts.mpr stops

/-! ## Cycles that end a run -/

theorem Leads.output_ended (leads : Leads options progress (.ended ending last)) :
    last.machine.output = progress.machine.output := by
  cases leads with
  | stopped => rfl
  | unread => rfl
  | undecoded => rfl
  | failed fetches accepted executed =>
      have same := (Action.execute_error_outward (Instruction.ofWord_wellFormed accepted)
        executed).1
      rw [Machine.output_of_console same.console, Machine.output_clearLastWrite]

theorem Leads.halted_ended (leads : Leads options progress (.ended ending last)) :
    last.machine.halted = progress.machine.halted := by
  cases leads with
  | stopped => rfl
  | unread => rfl
  | undecoded => rfl
  | failed fetches accepted executed =>
      exact (Action.execute_error_outward (Instruction.ofWord_wellFormed accepted)
        executed).1.halted

theorem Leads.extends_ended (leads : Leads options progress (.ended ending last)) :
    progress.Extends last := by
  refine ⟨Nat.le_of_eq leads.steps_ended.symm, ?_, "", ?_⟩
  · cases leads <;> exact List.prefix_refl _
  · rw [leads.output_ended, String.append_empty]

/-- No cycle fails by the limit of a run. -/
theorem Leads.kind_ended {fault : Fault}
    (leads : Leads options progress (.ended (.failed fault) last)) : fault.kind ≠ .stepLimit := by
  intro kind
  cases leads with
  | unread passes outside =>
      rw [Memory.read_error_kind outside] at kind
      cases kind
  | undecoded fetches refused =>
      rw [(Instruction.ofWord_refuses refused).1] at kind
      cases kind
  | failed fetches accepted executed =>
      have arises := (Action.execute_error_outward (Instruction.ofWord_wellFormed accepted)
        executed).2
      rw [kind] at arises
      cases arises

/-! ## Runs -/

/-- Where a run ends extends where it began. -/
theorem extends_run {limit : Nat} (ran : progress.run options limit = .ok (ending, last)) :
    progress.Extends last :=
  holds_of_run (fun extended leads => extended.trans leads.extends_continued)
    (fun extended leads => extended.trans leads.extends_ended) progress.extends_refl ran

/-- A run fails by its limit only after as many cycles as it was allowed. -/
theorem Finishes.of_stepLimit {fault : Fault} {count limit : Nat}
    (finishes : Finishes options count limit progress (.failed fault) last)
    (kind : fault.kind = .stepLimit) :
    count = limit ∧ progress.machine.halted = false ∧ last = progress := by
  cases finishes with
  | exhausted running fits spent => exact ⟨spent, running, rfl⟩
  | ended running within leads => exact absurd kind leads.kind_ended

/-- A run that comes to a breakpoint has done nothing at it. -/
theorem Finishes.of_breakpoint {count limit : Nat}
    (finishes : Finishes options count limit progress .breakpoint last) :
    progress.machine.halted = false ∧
      options.breakpoints.contains progress.machine.programCounter.toInt = true ∧
      last = ⟨progress.machine, progress.arrived⟩ := by
  cases finishes with
  | ended running within leads =>
      cases leads with
      | stopped reached => exact ⟨running, reached, rfl⟩

/-- The machine has halted at the end of a run exactly if that is how the run ends. -/
theorem Finishes.halted_iff {count limit : Nat}
    (finishes : Finishes options count limit progress ending last) :
    last.machine.halted = true ↔ ending = .halted := by
  cases finishes with
  | halted stopped => simp [stopped]
  | exhausted running => simp [running]
  | ended running within leads =>
      rw [leads.halted_ended, running]
      cases leads <;> simp

theorem Finishes.steps {count limit : Nat}
    (finishes : Finishes options count limit progress ending last) :
    last.record.steps = progress.record.steps := by
  cases finishes with
  | halted => rfl
  | exhausted => rfl
  | ended running within leads => exact leads.steps_ended

theorem Path.steps {steps : List Step} {middle : Progress}
    (path : Path options progress steps middle) :
    middle.record.steps = progress.record.steps + steps.length := by
  induction path with
  | nil => rfl
  | cons running leads rest induction =>
      rw [induction, leads.steps_continued, List.length_cons]
      omega

end Progress

end Arm32
