import Arm32.Proofs.Execution.Atomicity
import Arm32.Proofs.Execution.Transfers
import Arm32.Proofs.Memory.Refusals

namespace Arm32

/-! When instructions fail. What a machine refuses is read off the machine before the
instruction: register pairs that do not exist, places outside memory, and system calls
that nobody answers. An instruction fails exactly if its condition holds and its operation
is refused, and it fails in the way in which it is refused. -/

/-! ## What a machine refuses -/

/-- How many bytes a load moves. -/
def LoadSize.bytes : LoadSize → Nat
  | .byte | .signedByte => 1
  | .unsignedHalfWord | .signedHalfWord => 2
  | .word => 4
  | .doubleWord => 8

/-- How many bytes a store moves. -/
def StoreSize.bytes : StoreSize → Nat
  | .byte => 1
  | .halfWord => 2
  | .word => 4
  | .doubleWord => 8

/-- The value register cannot be the first one of a pair. -/
def Transfer.Unpaired (transfer : Transfer) : Prop :=
  transfer.valueRegister % 2 = 1 ∨ transfer.valueRegister = 14

instance (transfer : Transfer) : Decidable transfer.Unpaired :=
  inferInstanceAs (Decidable (_ ∨ _))

namespace Machine

/-- Why a transfer of some bytes is refused. Of eight bytes, the first four and the last
four have to lie in memory by themselves. -/
inductive RefusesTransfer (machine : Machine) (count : Nat) (transfer : Transfer) :
    FaultKind → Option Int → Prop where
  | unpaired (double : count = 8) (alone : transfer.Unpaired) :
      RefusesTransfer machine count transfer .unimplemented none
  | outside (paired : ¬ (count = 8 ∧ transfer.Unpaired))
      (past : machine.memory.size < (machine.transferAddress transfer).toNat + min count 4) :
      RefusesTransfer machine count transfer .memoryAccess
        (some (machine.transferAddress transfer).toInt)
  | secondOutside (double : count = 8) (paired : ¬ transfer.Unpaired)
      (inside : (machine.transferAddress transfer).toNat + 4 ≤ machine.memory.size)
      (past : machine.memory.size < (machine.transferAddress transfer).toNat + 8) :
      RefusesTransfer machine count transfer .memoryAccess
        (some ((machine.transferAddress transfer).toInt + 4))

/-- The machine is about to write a string on the console that it has. -/
structure WritesString (machine : Machine) : Prop where
  number : machine.registers.get Register.callNumber = 4
  descriptor : machine.registers.get 0 = 1
  attached : machine.console? ≠ none

/-- Why a system call is refused. A string without an end runs out of memory. -/
inductive RefusesCall (machine : Machine) : FaultKind → Option Int → Prop where
  | unknown (notExit : machine.registers.get Register.callNumber ≠ 1)
      (notWrite : machine.registers.get Register.callNumber ≠ 4) :
      RefusesCall machine .systemCall none
  | unwritable (writes : machine.registers.get Register.callNumber = 4)
      (closed : machine.registers.get 0 ≠ 1 ∨ machine.console? = none) :
      RefusesCall machine .systemCall none
  | outside (writes : machine.WritesString)
      (past : machine.memory.size ≤ (machine.registers.get 1).toNat) :
      RefusesCall machine .memoryAccess (some (machine.registers.get 1).toInt)
  | unterminated (writes : machine.WritesString)
      (inside : (machine.registers.get 1).toNat < machine.memory.size)
      (endless : ∀ index, (machine.registers.get 1).toNat ≤ index →
        index < machine.memory.size → machine.memory.byteAt index ≠ 0) :
      RefusesCall machine .memoryAccess (some machine.memory.size)

/-- The operation is refused by a fault of the kind, at the address if it has one. -/
def Refuses (machine : Machine) (operation : Operation) (kind : FaultKind)
    (address? : Option Int) : Prop :=
  match operation with
  | .load size transfer => machine.RefusesTransfer size.bytes transfer kind address?
  | .store size transfer => machine.RefusesTransfer size.bytes transfer kind address?
  | .supervisorCall _ => machine.RefusesCall kind address?
  | _ => False

end Machine

/-! ## Failures -/

/-- The failure is a fault of the kind, at the address if it has one. -/
def FailsBy (failure? : Option Failure) (kind : FaultKind) (address? : Option Int) : Prop :=
  ∃ fault, failure? = some (.fault fault) ∧ fault.kind = kind ∧ fault.faultAddress? = address?

theorem not_failsBy_none (kind : FaultKind) (address? : Option Int) :
    ¬ FailsBy none kind address? := by
  rintro ⟨fault, failed, -⟩
  cases failed

/-- What an action has failed by, if it has. -/
def Action.failure? : EStateM.Result Failure Machine Unit → Option Failure
  | .ok _ _ => none
  | .error failure _ => some failure

/-! ## Transfers -/

theorem Transfer.not_pairsRegisters_iff (transfer : Transfer) :
    ¬ transfer.PairsRegisters ↔ transfer.Unpaired := by
  have link : Register.link.number = 14 := rfl
  simp only [PairsRegisters, Unpaired, link]
  omega

/-- Of a transfer that is not of a double word, all bytes are moved at once. -/
theorem LoadSize.bytes_of_access {size : LoadSize} {entry : LoadAccess}
    (found : size.access = .ok entry) : size.bytes = entry.width ∧ size.bytes ≤ 4 := by
  cases size <;> cases found <;> decide

theorem StoreSize.bytes_of_accessWidth {size : StoreSize} {width : Nat}
    (found : size.accessWidth = .ok width) : size.bytes = width ∧ size.bytes ≤ 4 := by
  cases size <;> cases found <;> decide

theorem LoadSize.bytes_cases (size : LoadSize) : size.bytes ≤ 4 ∨ size.bytes = 8 := by
  cases size <;> decide

theorem StoreSize.bytes_cases (size : StoreSize) : size.bytes ≤ 4 ∨ size.bytes = 8 := by
  cases size <;> decide

namespace Machine

variable {machine : Machine} {direction : TransferDirection} {count : Nat} {transfer : Transfer}
  {kind : FaultKind} {address? : Option Int}

/-- What a transfer of some bytes fails by. The register pair is looked at first. -/
def transferFailure? (machine : Machine) (direction : TransferDirection) (count : Nat)
    (transfer : Transfer) : Option Failure :=
  let address := machine.transferAddress transfer
  if count = 8 ∧ transfer.Unpaired then
    some (.naming transfer.valueRegister (.unpairedRegister direction))
  else if machine.memory.size < address.toNat + min count 4 then
    some (.fault (machine.memory.outOfRange address.toInt (min count 4)))
  else if machine.memory.size < address.toNat + count then
    some (.fault (machine.memory.outOfRange (address.toInt + 4) 4))
  else none

theorem transferFailure?_of_single (small : count ≤ 4) :
    machine.transferFailure? direction count transfer =
      if machine.memory.Contains (machine.transferAddress transfer).toInt count then none
      else
        some (.fault
          (machine.memory.outOfRange (machine.transferAddress transfer).toInt count)) := by
  have single : ¬ (count = 8 ∧ transfer.Unpaired) := by omega
  have whole : min count 4 = count := Nat.min_eq_left small
  simp only [transferFailure?, single, whole, if_false, Memory.contains_toInt_iff]
  by_cases inside : (machine.transferAddress transfer).toNat + count ≤ machine.memory.size
  · simp only [inside, Nat.not_lt.mpr inside, if_true, if_false]
  · simp only [inside, Nat.not_le.mp inside, if_true, if_false]

theorem transferFailure?_of_double :
    machine.transferFailure? direction 8 transfer =
      let address := (machine.transferAddress transfer).toInt
      if ¬ transfer.PairsRegisters then
        some (.naming transfer.valueRegister (.unpairedRegister direction))
      else if ¬ machine.memory.Contains address 4 then
        some (.fault (machine.memory.outOfRange address 4))
      else if ¬ machine.memory.Contains (address + 4) 4 then
        some (.fault (machine.memory.outOfRange (address + 4) 4))
      else none := by
  have first : min 8 4 = 4 := rfl
  have second : machine.memory.Contains ((machine.transferAddress transfer).toInt + 4) 4 ↔
      (machine.transferAddress transfer).toNat + 8 ≤ machine.memory.size := by
    simp only [Memory.Contains, Word.toInt]
    omega
  simp only [transferFailure?, transfer.not_pairsRegisters_iff, Memory.contains_toInt_iff, first,
    second, Nat.not_le, true_and]

/-- A transfer fails in the way in which the machine refuses it. -/
theorem failsBy_transferFailure?_iff (names : IsRegister transfer.valueRegister)
    (sizes : count ≤ 4 ∨ count = 8) :
    FailsBy (machine.transferFailure? direction count transfer) kind address? ↔
      machine.RefusesTransfer count transfer kind address? := by
  constructor
  · rintro ⟨fault, failed, rfl, rfl⟩
    rw [transferFailure?, Failure.naming_of_fits names.fitsDecimal] at failed
    split at failed
    case isTrue unpaired =>
      cases failed
      exact .unpaired unpaired.1 unpaired.2
    case isFalse paired =>
      split at failed
      case isTrue past =>
        cases failed
        exact .outside paired past
      case isFalse inside =>
        split at failed
        case isTrue past =>
          cases failed
          have double : count = 8 := by omega
          subst double
          exact .secondOutside rfl (fun alone => paired ⟨rfl, alone⟩) (by omega) past
        case isFalse => cases failed
  · intro refused
    rw [transferFailure?, Failure.naming_of_fits names.fitsDecimal]
    cases refused with
    | unpaired double alone => exact ⟨_, if_pos ⟨double, alone⟩, rfl, rfl⟩
    | outside paired past =>
        rw [if_neg paired, if_pos past]
        exact ⟨_, rfl, rfl, rfl⟩
    | secondOutside double paired inside past =>
        subst double
        rw [if_neg fun both => paired both.2, if_neg (by omega), if_pos past]
        exact ⟨_, rfl, rfl, rfl⟩

end Machine

namespace Action

variable {machine : Machine}

theorem failure?_ok (after : Machine) : failure? (.ok () after) = none :=
  rfl

theorem failure?_error (failure : Failure) (after : Machine) :
    failure? (.error failure after) = some failure :=
  rfl

theorem failure?_ite {condition : Prop} [Decidable condition]
    (first second : EStateM.Result Failure Machine Unit) :
    failure? (if condition then first else second) =
      if condition then failure? first else failure? second :=
  apply_ite failure? condition first second

theorem failure?_load {size : LoadSize} {transfer : Transfer}
    (wellFormed : transfer.WellFormed size.isLong) :
    failure? ((load size transfer).run machine.advance) =
      machine.transferFailure? .load size.bytes transfer := by
  have address := @Machine.accessAddress_advance machine transfer wellFormed.baseNames
    wellFormed.offsetFits
  by_cases double : size = .doubleWord
  · subst double
    rw [run_load_doubleWord wellFormed, address, LoadSize.bytes,
      Machine.transferFailure?_of_double]
    simp only [failure?_ite, failure?_ok, failure?_error]
    rfl
  · rcases LoadSize.access_of_single double with ⟨entry, found⟩
    rcases LoadSize.bytes_of_access found with ⟨width, small⟩
    rw [run_load found wellFormed, address, Machine.transferFailure?_of_single small, width]
    simp only [failure?_ite, failure?_ok, failure?_error]
    rfl

theorem failure?_store {size : StoreSize} {transfer : Transfer}
    (wellFormed : transfer.WellFormed size.isLong) :
    failure? ((store size transfer).run machine.advance) =
      machine.transferFailure? .store size.bytes transfer := by
  have address := @Machine.accessAddress_advance machine transfer wellFormed.baseNames
    wellFormed.offsetFits
  by_cases double : size = .doubleWord
  · subst double
    rw [run_store_doubleWord wellFormed, address, StoreSize.bytes,
      Machine.transferFailure?_of_double]
    simp only [failure?_ite, failure?_ok, failure?_error]
    rfl
  · rcases StoreSize.accessWidth_of_single double with ⟨count, found⟩
    rcases StoreSize.bytes_of_accessWidth found with ⟨width, small⟩
    rw [run_store found wellFormed, address, Machine.transferFailure?_of_single small, width]
    simp only [failure?_ite, failure?_ok, failure?_error]
    rfl

end Action

/-! ## System calls -/

namespace Action

variable {machine : Machine} {kind : FaultKind} {address? : Option Int}

theorem failure?_systemCall :
    failure? (systemCall.run machine.advance) =
      if machine.registers.get Register.callNumber = 1 then none
      else if machine.registers.get Register.callNumber = 4 then
        failure? (writeCall.run machine.advance)
      else
        some (.fault (.unknownSystemCall (machine.registers.get Register.callNumber))) := by
  have number : machine.advance.operandValue Register.callNumber =
      machine.registers.get Register.callNumber := by
    rw [← Machine.valueOf_number]
    exact Machine.valueOf_advance_number (by decide)
  rw [run_systemCall, number, SystemCall.ofNumber?]
  by_cases exits : machine.registers.get Register.callNumber = 1
  · simp only [if_pos exits, failure?_ok]
  · by_cases writes : machine.registers.get Register.callNumber = 4
    · simp only [if_neg exits, if_pos writes]
    · simp only [if_neg exits, if_neg writes, failure?_error]

theorem failure?_writeCall :
    failure? (writeCall.run machine.advance) =
      if machine.registers.get 0 ≠ 1 then
        some (.fault (.unsupportedDescriptor (machine.registers.get 0)))
      else if machine.console?.isNone then some (.fault .noConsole)
      else
        match machine.memory.readString (machine.registers.get 1).toInt with
        | .ok _ => none
        | .error fault => some (.fault fault) := by
  have descriptor : machine.advance.valueOf 0 = machine.registers.get 0 :=
    @Machine.valueOf_advance_number machine 0 (by decide)
  have address : machine.advance.valueOf 1 = machine.registers.get 1 :=
    @Machine.valueOf_advance_number machine 1 (by decide)
  have console : machine.advance.console? = machine.console? := rfl
  rw [run_writeCall, descriptor, address, console, failure?_ite, failure?_ite,
    Machine.advance_memory]
  cases machine.memory.readString (machine.registers.get 1).toInt <;> rfl

theorem refusesCall_of_writeCall {fault : Fault}
    (writes : machine.registers.get Register.callNumber = 4)
    (failed : failure? (writeCall.run machine.advance) = some (.fault fault)) :
    machine.RefusesCall fault.kind fault.faultAddress? := by
  rw [failure?_writeCall] at failed
  split at failed
  case isTrue other =>
    cases failed
    exact .unwritable writes (.inl other)
  case isFalse standard =>
    split at failed
    case isTrue detached =>
      cases failed
      exact .unwritable writes (.inr (Option.isNone_iff_eq_none.mp detached))
    case isFalse attached =>
      have ready : machine.WritesString :=
        ⟨writes, Decidable.not_not.mp standard, mt Option.isNone_iff_eq_none.mpr attached⟩
      split at failed
      case h_1 => cases failed
      case h_2 cause refused =>
        cases failed
        rcases Memory.readString_eq_error_iff.mp refused with ⟨past, rfl⟩ | ⟨inside, endless, rfl⟩
        · exact .outside ready past
        · exact .unterminated ready inside endless

/-- A string that is refused is the cause for which its write fails. -/
theorem failure?_of_writesString {fault : Fault} (ready : machine.WritesString)
    (refused : machine.memory.readString (machine.registers.get 1).toInt = .error fault) :
    failure? (systemCall.run machine.advance) = some (.fault fault) := by
  have notExit : machine.registers.get Register.callNumber ≠ 1 := by
    rw [ready.number]
    decide
  have attached : ¬ machine.console?.isNone = true :=
    mt Option.isNone_iff_eq_none.mp ready.attached
  rw [failure?_systemCall, if_neg notExit, if_pos ready.number, failure?_writeCall,
    if_neg (not_not_intro ready.descriptor), if_neg attached, refused]

theorem failsBy_systemCall_iff :
    FailsBy (failure? (systemCall.run machine.advance)) kind address? ↔
      machine.RefusesCall kind address? := by
  constructor
  · rintro ⟨fault, failed, rfl, rfl⟩
    rw [failure?_systemCall] at failed
    split at failed
    case isTrue => cases failed
    case isFalse notExit =>
      split at failed
      case isTrue writes => exact refusesCall_of_writeCall writes failed
      case isFalse notWrite =>
        cases failed
        exact .unknown notExit notWrite
  · intro refused
    cases refused with
    | unknown notExit notWrite =>
        rw [failure?_systemCall, if_neg notExit, if_neg notWrite]
        exact ⟨_, rfl, rfl, rfl⟩
    | unwritable writes closed =>
        have notExit : machine.registers.get Register.callNumber ≠ 1 := by
          rw [writes]
          decide
        rw [failure?_systemCall, if_neg notExit, if_pos writes, failure?_writeCall]
        by_cases standard : machine.registers.get 0 = 1
        · have detached := closed.resolve_left (not_not_intro standard)
          rw [if_neg (not_not_intro standard), detached]
          exact ⟨_, rfl, rfl, rfl⟩
        · rw [if_pos standard]
          exact ⟨_, rfl, rfl, rfl⟩
    | outside ready past =>
        have refused := Memory.readString_eq_error_iff.mpr (.inl ⟨past, rfl⟩)
        exact ⟨_, failure?_of_writesString ready refused, rfl, rfl⟩
    | unterminated ready inside endless =>
        have refused := Memory.readString_eq_error_iff.mpr (.inr ⟨inside, endless, rfl⟩)
        exact ⟨_, failure?_of_writesString ready refused, rfl, rfl⟩

/-! ## Instructions -/

theorem failsBy_perform_iff {operation : Operation} (wellFormed : operation.WellFormed) :
    FailsBy (failure? ((perform operation).run machine.advance)) kind address? ↔
      machine.Refuses operation kind address? := by
  have never := not_failsBy_none kind address?
  cases operation with
  | combine operator destination source second setsFlags =>
      rcases wellFormed with ⟨destinationNames, sourceNames, operandFits⟩
      rw [perform, run_combine operator setsFlags destinationNames sourceNames operandFits]
      exact iff_of_false never id
  | compare source second =>
      rw [perform, run_compare wellFormed.1 wellFormed.2]
      exact iff_of_false never id
  | move inverted destination source setsFlags =>
      rw [perform, run_move inverted setsFlags wellFormed.1 wellFormed.2]
      exact iff_of_false never id
  | moveHalf half destination immediate =>
      rw [perform, run_moveHalf half immediate wellFormed.1]
      exact iff_of_false never id
  | branch offset link =>
      rw [perform, run_branch]
      exact iff_of_false never id
  | branchExchange register =>
      rw [perform, run_branchExchange wellFormed]
      exact iff_of_false never id
  | load size transfer =>
      rw [perform, failure?_load wellFormed]
      exact Machine.failsBy_transferFailure?_iff wellFormed.valueNames size.bytes_cases
  | store size transfer =>
      rw [perform, failure?_store wellFormed]
      exact Machine.failsBy_transferFailure?_iff wellFormed.valueNames size.bytes_cases
  | supervisorCall immediate => exact failsBy_systemCall_iff
  | undefined => exact wellFormed.elim

theorem failsBy_execute_iff {instruction : Instruction} (wellFormed : instruction.WellFormed) :
    FailsBy (failure? ((execute instruction).run machine)) kind address? ↔
      instruction.condition.holds machine.flags = true ∧
        machine.Refuses instruction.operation kind address? := by
  rw [run_execute]
  by_cases holds : instruction.condition.holds machine.flags = true
  · rw [if_pos holds, failsBy_perform_iff wellFormed, and_iff_right holds]
  · rw [if_neg holds]
    exact iff_of_false (not_failsBy_none kind address?) fun refused => holds refused.1

/-- An instruction fails exactly if its condition holds and the machine refuses its
operation, by that kind of fault and at that address. It succeeds in every other case. -/
theorem failed_execution_iff_refused {value : Int} {instruction : Instruction}
    (decoded : Instruction.decode value = .ok instruction) (machine : Machine) :
    (∀ kind address?, FailsBy (failure? ((execute instruction).run machine)) kind address? ↔
        instruction.condition.holds machine.flags = true ∧
          machine.Refuses instruction.operation kind address?) ∧
      ((∃ after, (execute instruction).run machine = .ok () after) ↔
        ¬ (instruction.condition.holds machine.flags = true ∧
          ∃ kind address?, machine.Refuses instruction.operation kind address?)) := by
  have wellFormed := Instruction.wellFormed_of_decode decoded
  refine ⟨fun kind address? => failsBy_execute_iff wellFormed, ?_⟩
  constructor
  · rintro ⟨after, succeeded⟩ ⟨holds, kind, address?, refused⟩
    have failed := failsBy_execute_iff wellFormed |>.mpr ⟨holds, refused⟩
    rw [succeeded] at failed
    exact not_failsBy_none kind address? failed
  · intro allowed
    cases ran : (execute instruction).run machine with
    | ok result after => exact ⟨after, rfl⟩
    | error failure after =>
        rcases perform_error_is_fault wellFormed (execute_error ran) with ⟨fault, rfl⟩
        have failed : FailsBy (failure? ((execute instruction).run machine)) fault.kind
            fault.faultAddress? := ⟨fault, by rw [ran, failure?_error], rfl, rfl⟩
        rcases (failsBy_execute_iff wellFormed).mp failed with ⟨holds, refused⟩
        exact absurd ⟨holds, _, _, refused⟩ allowed

/-- Of two words at the end of memory, the second one is refused at its own address. -/
theorem failed_execution_iff_refused_second :
    let machine : Machine :=
      { memory := .zeros 8, registers := (Vector.replicate 16 0).setIfInBounds 1 4 }
    let operation : Operation := .load .doubleWord ⟨.before, false, .plus, 2, 1, .immediate 0⟩
    machine.Refuses operation .memoryAccess (some 8) ∧
      FailsBy (failure? ((execute ⟨.always, operation⟩).run machine)) .memoryAccess (some 8) := by
  intro machine operation
  have decoded : Instruction.decode 0xE1C120D0 = .ok ⟨.always, operation⟩ := rfl
  have refused : machine.Refuses operation .memoryAccess (some 8) :=
    .secondOutside rfl (by decide) (by decide) (by decide)
  exact ⟨refused, ((failed_execution_iff_refused decoded machine).1 _ _).mpr ⟨rfl, refused⟩⟩

end Action

end Arm32
