import Arm32.Proofs.Assembly.Reading
import Arm32.Proofs.Decoding.WellFormed
import Arm32.Proofs.Execution.Effects

namespace Arm32

/-! What a text identifies. Two decoded instructions have the same text if and
only if they show the same, and what is not shown has no effect but on the carry
flag. -/

namespace Assembly

/-! ## What is not shown is not written -/

theorem operandArgument_shown (operand : Operand) :
    operandArgument operand.shown = operandArgument operand := by
  cases operand <;> rfl

theorem addressArgument_shown (transfer : Transfer) :
    addressArgument transfer.shown = addressArgument transfer := by
  by_cases silent : transfer.offset = .immediate 0 ∧ transfer.indexing = .before
  · simp only [Transfer.shown, if_pos silent, addressArgument]
  · simp only [Transfer.shown, if_neg silent]

end Assembly

@[simp] theorem Transfer.shown_valueRegister (transfer : Transfer) :
    transfer.shown.valueRegister = transfer.valueRegister := by
  unfold shown
  split <;> rfl

namespace Instruction

theorem text_shown (instruction : Instruction) (address? : Option Int) :
    instruction.shown.text address? = instruction.text address? := by
  rcases instruction with ⟨condition, operation⟩
  cases operation <;>
    simp only [text, shown, Operation.shown, Assembly.line, Assembly.operandArgument_shown,
      Assembly.transferArguments, Assembly.addressArgument_shown, Transfer.shown_valueRegister]

/-- Instructions have the same text exactly if they show the same. -/
theorem text_eq_text_iff {first second : Instruction} (firstFits : first.WellFormed)
    (secondFits : second.WellFormed) (address? : Option Int) :
    first.text address? = second.text address? ↔ first.shown = second.shown := by
  constructor
  case mp =>
    intro same
    rcases first.read_text firstFits address? with ⟨text, written, reads⟩
    rcases second.read_text secondFits address? with ⟨other, otherWritten, otherReads⟩
    rw [written, otherWritten] at same
    cases same
    exact Option.some.inj (reads.symm.trans otherReads)
  case mpr =>
    intro same
    rw [← text_shown first, same, text_shown]

end Instruction

/-! ## What is not shown has no effect -/

/-- Operations that set the carry flag to the carry of their immediate. -/
def Operation.TakesImmediateCarry : Operation → Prop
  | .combine operator _ _ (.immediate ..) setsFlags =>
      (operator = .and ∨ operator = .or) ∧ setsFlags = true
  | .move _ _ (.immediate ..) setsFlags => setsFlags = true
  | _ => False

namespace Operation

variable {operation : Operation} {value : Int}

theorem shown_eq_combine {operator : DataOperator} {destination source : Int} {setsFlags : Bool}
    (shows : operation.shown = .combine operator destination source (.immediate value false 0)
      setsFlags) :
    ∃ carry rotation,
      operation = .combine operator destination source (.immediate value carry rotation)
        setsFlags := by
  cases operation with
  | combine _ _ _ operand _ =>
      cases operand with
      | immediate _ carry rotation =>
          cases shows
          exact ⟨carry, rotation, rfl⟩
      | register => simp [shown, Operand.shown] at shows
  | _ => simp [shown] at shows

theorem shown_eq_move {inverted : Bool} {destination : Int} {setsFlags : Bool}
    (shows : operation.shown = .move inverted destination (.immediate value false 0) setsFlags) :
    ∃ carry rotation,
      operation = .move inverted destination (.immediate value carry rotation) setsFlags := by
  cases operation with
  | move _ _ operand _ =>
      cases operand with
      | immediate _ carry rotation =>
          cases shows
          exact ⟨carry, rotation, rfl⟩
      | register => simp [shown, Operand.shown] at shows
  | _ => simp [shown] at shows

end Operation

def Machine.withCarry (machine : Machine) (carry : Bool) : Machine :=
  { machine with flags := { machine.flags with carry } }

namespace Action

theorem addresses_shown (transfer : Transfer) : addresses transfer.shown = addresses transfer := by
  by_cases silent : transfer.offset = .immediate 0 ∧ transfer.indexing = .before
  · rcases transfer with ⟨indexing, writeBack, sign, valueRegister, baseRegister, offset⟩
    rcases silent with ⟨rfl, rfl⟩
    cases sign <;> simp [Transfer.shown, addresses, offsetValue]
  · simp only [Transfer.shown, if_neg silent]

theorem checkPair_shown (direction : TransferDirection) (transfer : Transfer) :
    checkPair direction transfer.shown = checkPair direction transfer := by
  unfold Transfer.shown
  split <;> rfl

theorem writeBack_shown (transfer : Transfer) (adjusted : Word) :
    writeBack transfer.shown adjusted = writeBack transfer adjusted := by
  unfold Transfer.shown
  split <;> rfl

theorem load_shown (size : LoadSize) (transfer : Transfer) :
    load size transfer.shown = load size transfer := by
  simp only [load, checkPair_shown, addresses_shown, writeBack_shown,
    Transfer.shown_valueRegister]

theorem store_shown (size : StoreSize) (transfer : Transfer) :
    store size transfer.shown = store size transfer := by
  simp only [store, checkPair_shown, addresses_shown, writeBack_shown,
    Transfer.shown_valueRegister]

theorem combine_shown {operator : DataOperator} {destination source : Int} {second : Operand}
    {setsFlags : Bool}
    (ignored :
      ¬ (Operation.combine operator destination source second setsFlags).TakesImmediateCarry) :
    combine operator destination source second.shown setsFlags =
      combine operator destination source second setsFlags := by
  cases second with
  | register => rfl
  | immediate value carry rotation =>
      -- Arithmetic makes its own carry, and a result without flags has no use for one.
      cases operator with
      | add | addWithCarry | subtract => rfl
      | and =>
          cases setsFlags with
          | false => rfl
          | true => exact absurd ⟨.inl rfl, rfl⟩ ignored
      | or =>
          cases setsFlags with
          | false => rfl
          | true => exact absurd ⟨.inr rfl, rfl⟩ ignored

theorem compare_shown (source : Int) (second : Operand) :
    compare source second.shown = compare source second := by
  cases second <;> rfl

theorem move_shown {inverted : Bool} {destination : Int} {source : Operand} {setsFlags : Bool}
    (ignored : ¬ (Operation.move inverted destination source setsFlags).TakesImmediateCarry) :
    move inverted destination source.shown setsFlags =
      move inverted destination source setsFlags := by
  cases source with
  | register => rfl
  | immediate value carry rotation =>
      cases setsFlags with
      | false => rfl
      | true => exact absurd rfl ignored

theorem perform_shown {operation : Operation} (ignored : ¬ operation.TakesImmediateCarry) :
    perform operation.shown = perform operation := by
  cases operation with
  | combine => exact combine_shown ignored
  | compare source second => exact compare_shown source second
  | move => exact move_shown ignored
  | load size transfer => exact load_shown size transfer
  | store size transfer => exact store_shown size transfer
  | moveHalf | branch | branchExchange | supervisorCall | undefined => rfl

/-- A carry that is taken from an immediate leaves no other trace. -/
theorem perform_takesImmediateCarry {first second : Operation} (firstFits : first.WellFormed)
    (secondFits : second.WellFormed) (same : second.shown = first.shown)
    (takes : first.TakesImmediateCarry) (machine : Machine) :
    ∃ after carry, (perform first).run machine = .ok () after ∧
      (perform second).run machine = .ok () (after.withCarry carry) := by
  cases first with
  | combine operator destination source operand setsFlags =>
      cases operand with
      | register => exact takes.elim
      | immediate value carry rotation =>
          rcases takes with ⟨logical, rfl⟩
          rcases Operation.shown_eq_combine same with ⟨otherCarry, otherRotation, rfl⟩
          rcases firstFits with ⟨destinationNames, sourceNames, operandFits⟩
          refine ⟨_, if otherRotation = 0 then machine.flags.carry else otherCarry,
            run_combine operator true destinationNames sourceNames operandFits, ?_⟩
          refine (run_combine operator true destinationNames sourceNames secondFits.2.2).trans ?_
          rcases logical with rfl | rfl <;> rfl
  | move inverted destination operand setsFlags =>
      cases operand with
      | register => exact takes.elim
      | immediate value carry rotation =>
          have flagsSet : setsFlags = true := takes
          subst flagsSet
          rcases Operation.shown_eq_move same with ⟨otherCarry, otherRotation, rfl⟩
          rcases firstFits with ⟨destinationNames, operandFits⟩
          refine ⟨_, if otherRotation = 0 then machine.flags.carry else otherCarry,
            run_move inverted true destinationNames operandFits, ?_⟩
          exact run_move inverted true destinationNames secondFits.2
  | _ => exact takes.elim

theorem takesImmediateCarry_shown (operation : Operation) :
    operation.shown.TakesImmediateCarry ↔ operation.TakesImmediateCarry := by
  match operation with
  | .combine _ _ _ (.immediate ..) _ | .combine _ _ _ (.register ..) _
  | .move _ _ (.immediate ..) _ | .move _ _ (.register ..) _ => rfl
  | .compare .. | .moveHalf .. | .branch .. | .branchExchange .. | .load .. | .store ..
  | .supervisorCall .. | .undefined => rfl

/-- Instructions that show the same have the same effect, but for a carry that
is taken from an immediate. -/
theorem execute_of_shown {first second : Instruction} (firstFits : first.WellFormed)
    (secondFits : second.WellFormed) (same : first.shown = second.shown) (machine : Machine) :
    (execute first).run machine = (execute second).run machine ∨
      first.operation.TakesImmediateCarry ∧ ∃ after carry,
        (execute first).run machine = .ok () after ∧
        (execute second).run machine = .ok () (after.withCarry carry) := by
  have conditions : first.condition = second.condition := congrArg (·.condition) same
  have operations : first.operation.shown = second.operation.shown := congrArg (·.operation) same
  rw [run_execute, run_execute, ← conditions]
  by_cases holds : first.condition.holds machine.flags = true
  case neg => exact .inl (by simp only [if_neg holds])
  case pos =>
    simp only [if_pos holds]
    by_cases takes : first.operation.TakesImmediateCarry
    case pos =>
      exact .inr ⟨takes, perform_takesImmediateCarry firstFits secondFits operations.symm takes _⟩
    case neg =>
      have otherIgnored : ¬ second.operation.TakesImmediateCarry := by
        rwa [← takesImmediateCarry_shown, ← operations, takesImmediateCarry_shown]
      exact .inl (by rw [← perform_shown takes, operations, perform_shown otherIgnored])

end Action

/-! ## Words with the same text -/

/-- The texts of two words that can be decoded are equal if and only if the
instructions are, apart from the carry and the rotation of an immediate and the
sign of an offset of zero before the access. Then both words have the same
effect on every machine, but for a carry that is taken from an immediate. -/
theorem Instruction.text_identifies {firstWord secondWord : Int} {first second : Instruction}
    (firstDecoded : decode firstWord = .ok first) (secondDecoded : decode secondWord = .ok second)
    (address? : Option Int) :
    ∃ firstText secondText,
      first.text address? = .ok firstText ∧ second.text address? = .ok secondText ∧
      (firstText = secondText ↔ first.shown = second.shown) ∧
      (firstText = secondText → ∀ machine : Machine,
        (Action.executeWord firstWord).run machine = (Action.executeWord secondWord).run machine ∨
          first.operation.TakesImmediateCarry ∧ ∃ after carry,
            (Action.executeWord firstWord).run machine = .ok () after ∧
            (Action.executeWord secondWord).run machine = .ok () (after.withCarry carry)) := by
  have firstFits := wellFormed_of_decode firstDecoded
  have secondFits := wellFormed_of_decode secondDecoded
  rcases text_succeeds firstFits address? with ⟨firstText, firstWritten⟩
  rcases text_succeeds secondFits address? with ⟨secondText, secondWritten⟩
  have identified : firstText = secondText ↔ first.shown = second.shown := by
    rw [← text_eq_text_iff firstFits secondFits address?, firstWritten, secondWritten]
    exact ⟨congrArg Except.ok, Except.ok.inj⟩
  refine ⟨firstText, secondText, firstWritten, secondWritten, identified, fun same machine => ?_⟩
  rw [Action.run_executeWord firstDecoded, Action.run_executeWord secondDecoded]
  exact Action.execute_of_shown firstFits secondFits (identified.mp same) machine

/-- Four is a byte as it is and a byte rotated by thirty bits. -/
theorem Instruction.text_identifies_rotated :
    let plain : Instruction := ⟨.always, .move false 0 (.immediate 4 false 0) true⟩
    let rotated : Instruction := ⟨.always, .move false 0 (.immediate 4 false 30) true⟩
    decode 0xE3B00004 = .ok plain ∧ decode 0xE3B00F01 = .ok rotated ∧
      ∃ text, plain.text none = .ok text ∧ rotated.text none = .ok text := by
  intro plain rotated
  have plainDecoded : decode 0xE3B00004 = .ok plain := rfl
  have rotatedDecoded : decode 0xE3B00F01 = .ok rotated := rfl
  rcases text_identifies plainDecoded rotatedDecoded none with
    ⟨text, other, written, otherWritten, identified, -⟩
  have same : text = other := identified.mpr rfl
  exact ⟨plainDecoded, rotatedDecoded, text, written, same ▸ otherWritten⟩

end Arm32
