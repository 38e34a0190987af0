import Arm32.Proofs.Execution.Atomicity
import Arm32.Proofs.Memory.Refusals

namespace Arm32

/-! What instructions do to the outward parts of a machine, its console and its halted
flag. Only a write call puts text on the console, only a branch to itself and an exit
call halt the machine, and an instruction that fails does neither. -/

/-- Performing the operation halts the machine. A branch to itself has the offset zero,
and the call that exits has the number one. -/
def Operation.Halts (operation : Operation) (machine : Machine) : Prop :=
  match operation with
  | .branch offset _ => offset = 0
  | .supervisorCall _ => machine.registers.get Register.callNumber = 1
  | _ => False

namespace Machine

/-- Two machines with the same console and the same halted flag. -/
structure SameOutward (before after : Machine) : Prop where
  console : after.console? = before.console?
  halted : after.halted = before.halted

/-! ## Effects that do not show outside -/

variable {machine middle after : Machine}

theorem SameOutward.trans (first : machine.SameOutward middle)
    (second : middle.SameOutward after) : machine.SameOutward after :=
  ⟨second.console.trans first.console, second.halted.trans first.halted⟩

theorem sameOutward_setRegister (machine : Machine) (index : Register) (value : Word) :
    machine.SameOutward (machine.setRegister index value) :=
  ⟨rfl, rfl⟩

theorem sameOutward_advance (machine : Machine) : machine.SameOutward machine.advance :=
  machine.sameOutward_setRegister _ _

theorem sameOutward_assign (machine : Machine) (number : Int) (value : Word) :
    machine.SameOutward (machine.assign number value) := by
  rw [assign]
  split
  · exact machine.sameOutward_setRegister _ value
  · exact ⟨rfl, rfl⟩

theorem sameOutward_withFlags (machine : Machine) (result : DataResult) :
    machine.SameOutward (machine.withFlags result) :=
  ⟨rfl, rfl⟩

theorem sameOutward_withResult (machine : Machine) (destination : Int) (result : DataResult)
    (setsFlags : Bool) :
    machine.SameOutward (machine.withResult destination result setsFlags) := by
  have written := machine.sameOutward_assign destination (Word.ofInt result.value)
  cases setsFlags with
  | false => exact written
  | true => exact written.trans (sameOutward_withFlags _ result)

theorem sameOutward_withBase (machine : Machine) (transfer : Transfer) (adjusted : Word) :
    machine.SameOutward (machine.withBase transfer adjusted) := by
  rw [withBase]
  split
  · exact machine.sameOutward_assign _ adjusted
  · exact ⟨rfl, rfl⟩

theorem sameOutward_withStored (machine : Machine) (address : Int) (width : Nat)
    (value : Word) : machine.SameOutward (machine.withStored address width value) :=
  ⟨rfl, rfl⟩

/-! ## Branches -/

/-- The offsets that a branch reaches are too short to lead around the address space. -/
theorem ofInt_add_eq_self_iff {offset : Int} (reaches : BranchOffset offset) (origin : Word) :
    Word.ofInt (origin.toInt + offset) = origin ↔ offset = 0 := by
  rcases reaches with ⟨-, lower, upper⟩
  have bound := origin.isLt
  have reduced := Word.toNat_ofInt (origin.toInt + offset)
  rw [← BitVec.toNat_inj]
  simp only [Word.toInt] at reduced ⊢
  omega

/-- A branch halts the machine if it leads to itself, and not otherwise. -/
theorem halted_branched (machine : Machine) {offset : Int} (reaches : BranchOffset offset)
    (link : Bool) :
    (machine.branched offset link).halted = if offset = 0 then true else machine.halted := by
  have self := ofInt_add_eq_self_iff reaches (machine.programCounter - instructionSize)
  rw [branched]
  by_cases still : offset = 0
  · rw [if_pos (self.mpr still), if_pos still]
    rfl
  · rw [if_neg (mt self.mp still), if_neg still]
    cases link <;> rfl

theorem console_branched (machine : Machine) (offset : Int) (link : Bool) :
    (machine.branched offset link).console? = machine.console? := by
  rw [branched]
  split <;> cases link <;> rfl

end Machine

/-- Whether executing an instruction can bring about faults of the kind. -/
def FaultKind.arisesInExecution : FaultKind → Bool
  | .unimplemented | .memoryAccess | .systemCall => true
  | .general | .decoding | .runtime | .stepLimit => false

namespace Action

variable {machine after : Machine}

/-- What performing an operation comes to, as it shows outside. -/
inductive Concludes (operation : Operation) (machine : Machine) :
    EStateM.Result Failure Machine Unit → Prop where
  | silent {after : Machine} (same : machine.SameOutward after)
      (goesOn : ¬ operation.Halts machine) : Concludes operation machine (.ok () after)
  | wrote {address : Word} {bytes : List UInt8}
      (found : machine.memory.readString address.toInt = .ok bytes)
      (goesOn : ¬ operation.Halts machine) :
      Concludes operation machine (.ok () (machine.withOutput (SystemCall.textOf bytes)))
  | halted {after : Machine} (halts : operation.Halts machine)
      (console : after.console? = machine.console?) (stops : after.halted = true) :
      Concludes operation machine (.ok () after)
  | failed {fault : Fault} {after : Machine} (same : machine.SameOutward after)
      (kind : fault.kind.arisesInExecution = true) :
      Concludes operation machine (.error (.fault fault) after)

/-! ## Operations -/

theorem load_concludes {size : LoadSize} {transfer : Transfer}
    (wellFormed : transfer.WellFormed size.isLong) :
    Concludes (.load size transfer) machine ((load size transfer).run machine) := by
  have written := machine.sameOutward_withBase transfer (machine.adjustedBase transfer)
  by_cases double : size = .doubleWord
  · subst double
    rw [run_load_doubleWord wellFormed, Failure.naming_of_fits wellFormed.valueNames.fitsDecimal]
    dsimp only
    split
    · exact .failed ⟨rfl, rfl⟩ rfl
    · split
      · exact .failed ⟨rfl, rfl⟩ rfl
      · split
        · exact .failed ⟨rfl, rfl⟩ rfl
        · exact .silent ((written.trans (Machine.sameOutward_assign _ _ _)).trans
            (Machine.sameOutward_assign _ _ _)) id
  · rcases LoadSize.access_of_single double with ⟨entry, found⟩
    rw [run_load found wellFormed]
    split
    · exact .silent (written.trans (Machine.sameOutward_assign _ _ _)) id
    · exact .failed ⟨rfl, rfl⟩ rfl

theorem store_concludes {size : StoreSize} {transfer : Transfer}
    (wellFormed : transfer.WellFormed size.isLong) :
    Concludes (.store size transfer) machine ((store size transfer).run machine) := by
  by_cases double : size = .doubleWord
  · subst double
    rw [run_store_doubleWord wellFormed, Failure.naming_of_fits wellFormed.valueNames.fitsDecimal]
    dsimp only
    split
    · exact .failed ⟨rfl, rfl⟩ rfl
    · split
      · exact .failed ⟨rfl, rfl⟩ rfl
      · split
        · exact .failed (machine.sameOutward_withStored _ _ _) rfl
        · exact .silent (((machine.sameOutward_withStored _ _ _).trans
            (Machine.sameOutward_withStored _ _ _ _)).trans (Machine.sameOutward_withBase _ _ _)) id
  · rcases StoreSize.accessWidth_of_single double with ⟨width, found⟩
    rw [run_store found wellFormed]
    dsimp only
    split
    · exact .silent ((machine.sameOutward_withStored _ _ _).trans
        (Machine.sameOutward_withBase _ _ _)) id
    · exact .failed ⟨rfl, rfl⟩ rfl

theorem systemCall_concludes (immediate : Int) :
    Concludes (.supervisorCall immediate) machine (systemCall.run machine) := by
  have number : machine.operandValue Register.callNumber =
      machine.registers.get Register.callNumber := if_neg (by decide)
  rw [run_systemCall, number]
  cases called : SystemCall.ofNumber? (machine.registers.get Register.callNumber) with
  | none => exact .failed ⟨rfl, rfl⟩ rfl
  | some call =>
      cases call with
      | exit =>
          have exits : machine.registers.get Register.callNumber = 1 := by
            rw [SystemCall.ofNumber?] at called
            split at called
            case isTrue first => exact first
            case isFalse => split at called <;> cases called
          exact .halted exits rfl rfl
      | write =>
          have goesOn : ¬ (Operation.supervisorCall immediate).Halts machine := by
            intro exits
            have first : machine.registers.get Register.callNumber = 1 := exits
            rw [first] at called
            cases called
          dsimp only
          rw [run_writeCall]
          split
          · exact .failed ⟨rfl, rfl⟩ rfl
          · split
            · exact .failed ⟨rfl, rfl⟩ rfl
            · cases found : machine.memory.readString (machine.valueOf 1).toInt with
              | ok bytes => exact .wrote found goesOn
              | error fault =>
                  refine .failed ⟨rfl, rfl⟩ ?_
                  rw [Memory.readString_error_kind found]
                  rfl

theorem branch_concludes {offset : Int} (reaches : BranchOffset offset) (link : Bool) :
    Concludes (.branch offset link) machine ((branch offset link).run machine) := by
  rw [run_branch]
  have stops := machine.halted_branched reaches link
  by_cases self : offset = 0
  · rw [if_pos self] at stops
    exact .halted self (machine.console_branched offset link) stops
  · rw [if_neg self] at stops
    exact .silent ⟨machine.console_branched offset link, stops⟩ self

theorem perform_concludes {operation : Operation} (wellFormed : operation.WellFormed) :
    Concludes operation machine ((perform operation).run machine) := by
  cases operation with
  | combine operator destination source second setsFlags =>
      rcases wellFormed with ⟨destinationNames, sourceNames, operandFits⟩
      rw [perform, run_combine operator setsFlags destinationNames sourceNames operandFits]
      exact .silent (machine.sameOutward_withResult _ _ _) id
  | compare source second =>
      rw [perform, run_compare wellFormed.1 wellFormed.2]
      exact .silent (machine.sameOutward_withFlags _) id
  | move inverted destination source setsFlags =>
      rw [perform, run_move inverted setsFlags wellFormed.1 wellFormed.2]
      exact .silent (machine.sameOutward_withResult _ _ _) id
  | moveHalf half destination immediate =>
      rw [perform, run_moveHalf half immediate wellFormed.1]
      exact .silent (machine.sameOutward_assign _ _) id
  | branch offset link => exact branch_concludes wellFormed link
  | branchExchange register =>
      rw [perform, run_branchExchange wellFormed]
      exact .silent (machine.sameOutward_setRegister _ _) id
  | load size transfer => exact load_concludes wellFormed
  | store size transfer => exact store_concludes wellFormed
  | supervisorCall immediate => exact systemCall_concludes immediate
  | undefined => exact wellFormed.elim

/-! ## Instructions -/

/-- The number of a call is not in the program counter. -/
theorem halts_advance (operation : Operation) :
    operation.Halts machine.advance ↔ operation.Halts machine := by
  have same : machine.advance.registers.get Register.callNumber =
      machine.registers.get Register.callNumber := machine.setRegister_other _ _ _ (by decide)
  cases operation with
  | supervisorCall immediate => rw [Operation.Halts, Operation.Halts, same]
  | _ => exact Iff.rfl

variable {instruction : Instruction}

/-- An instruction leaves the console as it is or puts one string of its memory on it. -/
theorem execute_console (wellFormed : instruction.WellFormed)
    (executed : (execute instruction).run machine = .ok () after) :
    after.console? = machine.console? ∨
      ∃ (address : Word) (bytes : List UInt8),
        machine.memory.readString address.toInt = .ok bytes ∧
          after.console? = machine.console?.map (·.write (SystemCall.textOf bytes)) := by
  rw [run_execute] at executed
  split at executed
  case isTrue =>
    have concludes : Concludes instruction.operation machine.advance
        ((perform instruction.operation).run machine.advance) := perform_concludes wellFormed
    rw [executed] at concludes
    cases concludes with
    | silent same => exact .inl same.console
    | wrote found => exact .inr ⟨_, _, found, rfl⟩
    | halted halts console => exact .inl console
  case isFalse =>
    cases executed
    exact .inl rfl

/-- An instruction halts a machine that has not halted exactly if its condition holds
and its operation is one of the two that halt. -/
theorem execute_halted_iff (wellFormed : instruction.WellFormed)
    (running : machine.halted = false)
    (executed : (execute instruction).run machine = .ok () after) :
    after.halted = true ↔
      instruction.condition.holds machine.flags = true ∧ instruction.operation.Halts machine := by
  rw [run_execute] at executed
  split at executed
  case isTrue holds =>
    have concludes : Concludes instruction.operation machine.advance
        ((perform instruction.operation).run machine.advance) := perform_concludes wellFormed
    have stillRunning : machine.advance.halted = false := running
    rw [executed] at concludes
    rw [← halts_advance, and_iff_right holds]
    cases concludes with
    | silent same goesOn => simp [same.halted, stillRunning, goesOn]
    | @wrote address bytes found goesOn =>
        have unhalted : (machine.advance.withOutput (SystemCall.textOf bytes)).halted = false :=
          stillRunning
        simp [unhalted, goesOn]
    | halted halts console stops => simp [stops, halts]
  case isFalse skipped =>
    cases executed
    have stillRunning : machine.advance.halted = false := running
    simp [stillRunning, skipped]

/-- An instruction that fails does not show outside. -/
theorem execute_error_outward {fault : Fault} (wellFormed : instruction.WellFormed)
    (failed : (execute instruction).run machine = .error (.fault fault) after) :
    machine.SameOutward after ∧ fault.kind.arisesInExecution = true := by
  have concludes : Concludes instruction.operation machine.advance
      ((perform instruction.operation).run machine.advance) := perform_concludes wellFormed
  rw [execute_error failed] at concludes
  cases concludes with
  | failed same kind => exact ⟨machine.sameOutward_advance.trans same, kind⟩

end Action

end Arm32
