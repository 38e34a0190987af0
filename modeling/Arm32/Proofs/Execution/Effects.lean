import Arm32.Machine.Execute
import Arm32.Proofs.Execution.Operands

namespace Arm32

/-! Effects of operations. Each operation of a well-formed instruction is an
equation: the machine it leads to, or the fault it ends in and the machine it
leaves behind. A program can bring about nothing else. -/

namespace Machine

/-- The flags of a data operation. -/
def withFlags (machine : Machine) (result : DataResult) : Machine :=
  { machine with
    flags := machine.flags.update result.negative result.isZero result.carry result.overflow? }

/-- The result of a data operation, and its flags if they are asked for. -/
def withResult (machine : Machine) (destination : Int) (result : DataResult)
    (setsFlags : Bool) : Machine :=
  let written := machine.assign destination (Word.ofInt result.value)
  if setsFlags then written.withFlags result else written

/-- The base of a transfer, if it is written back. -/
def withBase (machine : Machine) (transfer : Transfer) (adjusted : Word) : Machine :=
  if transfer.writeBack ∨ transfer.indexing = .after then
    machine.assign transfer.baseRegister adjusted
  else machine

/-- The low `width` bytes of a value in memory. -/
def withStored (machine : Machine) (address : Int) (width : Nat) (value : Word) : Machine :=
  { machine with
    memory := machine.memory.setBytes address.toNat (LittleEndian.toBytes width value.toInt) }

/-- Text at the end of the console's output. -/
def withOutput (machine : Machine) (text : String) : Machine :=
  { machine with console? := machine.console?.map (·.write text) }

def moveResult (machine : Machine) (inverted : Bool) (source : Operand) : DataResult :=
  let output := machine.operandOutput source
  { value := if inverted then Arithmetic.inversion output.value else output.value
    carry := output.carry }

def moveHalfValue (machine : Machine) (half : Half) (destination immediate : Int) : Word :=
  match half with
  | .low => Word.ofInt (immediate % 0x10000)
  | .high =>
      Word.ofInt (0x10000 * (immediate % 0x10000) +
        (machine.valueOf destination).toInt % 0x10000)

/-- Where a branch of a machine that has moved on already leads. A branch to
itself leads nowhere and halts. -/
def branched (machine : Machine) (offset : Int) (link : Bool) : Machine :=
  let origin := machine.programCounter - instructionSize
  let destination := Word.ofInt (origin.toInt + offset)
  let linked := if link then machine.setRegister Register.link machine.programCounter else machine
  if destination = origin then linked.halt else linked.setProgramCounter destination

/-- Flags do not get in the way of the result. -/
theorem withResult_destination (machine : Machine) (destination : Register)
    (result : DataResult) (setsFlags : Bool) :
    (machine.withResult destination.number result setsFlags).registers.get destination =
      Word.ofInt result.value := by
  rw [withResult, assign_number]
  cases setsFlags with
  | true => exact machine.setRegister_same destination _
  | false => exact machine.setRegister_same destination _

@[simp] theorem withStored_contains (machine : Machine) (address other : Int)
    (width otherWidth : Nat) (value : Word) :
    (machine.withStored address width value).memory.Contains other otherWidth ↔
      machine.memory.Contains other otherWidth := by
  simp [Memory.Contains, withStored]

@[simp] theorem withStored_outOfRange (machine : Machine) (address other : Int)
    (width otherWidth : Nat) (value : Word) :
    (machine.withStored address width value).memory.outOfRange other otherWidth =
      machine.memory.outOfRange other otherWidth := by
  simp [Memory.outOfRange, withStored]

end Machine

namespace Action

/-- The machine that an action leaves behind, whether it succeeds or fails. -/
def machineLeft : EStateM.Result Failure Machine α → Machine
  | .ok _ after | .error _ after => after

variable {machine : Machine}

/-! ## Data operations -/

theorem run_writeResult {destination : Int} (result : DataResult) (setsFlags : Bool)
    (names : IsRegister destination) :
    (writeResult destination result setsFlags).run machine =
      .ok () (machine.withResult destination result setsFlags) := by
  simp only [writeResult, EStateM.run_bind, run_writeRegister _ names, Machine.withResult]
  cases setsFlags <;> rfl

theorem run_combine (operator : DataOperator) {destination source : Int} {second : Operand}
    (setsFlags : Bool) (destinationNames : IsRegister destination)
    (sourceNames : IsRegister source) (wellFormed : second.WellFormed) :
    (combine operator destination source second setsFlags).run machine =
      .ok () (machine.withResult destination
        (operator.apply (machine.valueOf source) (machine.operandOutput second)
          machine.flags.carry) setsFlags) := by
  simp only [combine, EStateM.run_bind, EStateM.run_get, run_operand wellFormed,
    run_readRegister sourceNames]
  exact run_writeResult _ setsFlags destinationNames

theorem run_compare {source : Int} {second : Operand} (sourceNames : IsRegister source)
    (wellFormed : second.WellFormed) :
    (compare source second).run machine =
      .ok () (machine.withFlags
        (Arithmetic.subtract (machine.valueOf source).toInt
          (machine.operandOutput second).value)) := by
  simp only [compare, EStateM.run_bind, run_operand wellFormed, run_readRegister sourceNames]
  rfl

theorem run_move (inverted : Bool) {destination : Int} {source : Operand} (setsFlags : Bool)
    (destinationNames : IsRegister destination) (wellFormed : source.WellFormed) :
    (move inverted destination source setsFlags).run machine =
      .ok () (machine.withResult destination (machine.moveResult inverted source) setsFlags) := by
  simp only [move, EStateM.run_bind, run_operand wellFormed]
  exact run_writeResult _ setsFlags destinationNames

theorem run_moveHalf (half : Half) {destination : Int} (immediate : Int)
    (names : IsRegister destination) :
    (moveHalf half destination immediate).run machine =
      .ok () (machine.assign destination (machine.moveHalfValue half destination immediate)) := by
  cases half with
  | low => exact run_writeRegister _ names
  | high =>
      simp only [moveHalf, EStateM.run_bind, run_readRegister names]
      exact run_writeRegister _ names

/-! ## Branches -/

theorem run_branch (offset : Int) (link : Bool) :
    (branch offset link).run machine = .ok () (machine.branched offset link) := by
  have linkNames : IsRegister Register.link.number := by decide
  cases link with
  | false =>
      simp only [branch, EStateM.run_bind, EStateM.run_get, Machine.branched,
        Bool.false_eq_true, if_false]
      split <;> rfl
  | true =>
      simp only [branch, EStateM.run_bind, EStateM.run_get, Machine.branched, if_true,
        run_writeRegister _ linkNames, Machine.assign_number]
      split <;> rfl

theorem run_branchExchange {register : Int} (names : IsRegister register) :
    (branchExchange register).run machine =
      .ok () (machine.setProgramCounter (machine.valueOf register)) := by
  simp only [branchExchange, EStateM.run_bind, run_readRegister names]
  rfl

/-! ## Memory -/

theorem run_readMemory (address : Int) (width : Nat) :
    (readMemory address width).run machine =
      if machine.memory.Contains address width then
        .ok (machine.memory.valueAt address.toNat width) machine
      else .error (.fault (machine.memory.outOfRange address width)) machine := by
  simp only [readMemory, EStateM.run_bind, EStateM.run_get, run_liftFault, Memory.read]
  by_cases inside : machine.memory.Contains address width
  · simp only [if_pos inside]
  · simp only [if_neg inside]

theorem run_loadMemory (block : List UInt8) (address : Int) :
    (loadMemory block address).run machine =
      if machine.memory.Contains address block.length then
        .ok () { machine with memory := machine.memory.setBytes address.toNat block }
      else .error (.fault (machine.memory.outOfRange address block.length)) machine :=
  rfl

theorem run_writeMemory (address : Int) (width : Nat) (value : Word) :
    (writeMemory address width value.toInt).run machine =
      if machine.memory.Contains address width then
        .ok () (machine.withStored address width value)
      else .error (.fault (machine.memory.outOfRange address width)) machine := by
  rw [writeMemory, run_loadMemory, LittleEndian.length_toBytes]
  rfl

theorem run_writeBack {transfer : Transfer} (adjusted : Word)
    (names : IsRegister transfer.baseRegister) :
    (writeBack transfer adjusted).run machine = .ok () (machine.withBase transfer adjusted) := by
  unfold writeBack Machine.withBase
  split
  · exact run_writeRegister _ names
  · rfl

/-! ## Transfers -/

theorem run_checkPair (direction : TransferDirection) (transfer : Transfer) :
    (checkPair direction transfer).run machine =
      if transfer.PairsRegisters then .ok () machine
      else .error (.naming transfer.valueRegister (.unpairedRegister direction)) machine := by
  unfold checkPair
  split <;> rfl

/-- A load of one access reads first and writes its registers last. -/
theorem run_load {size : LoadSize} {entry : LoadAccess} {transfer : Transfer}
    (found : size.access = .ok entry) (wellFormed : transfer.WellFormed size.isLong) :
    (load size transfer).run machine =
      if machine.memory.Contains (machine.accessAddress transfer).toInt entry.width then
        .ok () ((machine.withBase transfer (machine.adjustedBase transfer)).assign
          transfer.valueRegister (entry.extend
            (machine.memory.valueAt (machine.accessAddress transfer).toInt.toNat entry.width)))
      else
        .error (.fault (machine.memory.outOfRange (machine.accessAddress transfer).toInt
          entry.width)) machine := by
  simp only [load, if_neg (LoadSize.single_of_access found), EStateM.run_bind,
    run_addresses wellFormed.baseNames wellFormed.offsetFits, found, run_liftMisuse_ok,
    run_readMemory]
  by_cases inside : machine.memory.Contains (machine.accessAddress transfer).toInt entry.width
  · simp only [if_pos inside, run_writeBack _ wellFormed.baseNames]
    exact run_writeRegister _ wellFormed.valueNames
  · simp only [if_neg inside]

/-- A load of a double word makes both accesses before it writes any register. -/
theorem run_load_doubleWord {transfer : Transfer} (wellFormed : transfer.WellFormed false) :
    (load .doubleWord transfer).run machine =
      let address := (machine.accessAddress transfer).toInt
      if ¬ transfer.PairsRegisters then
        .error (.naming transfer.valueRegister (.unpairedRegister .load)) machine
      else if ¬ machine.memory.Contains address 4 then
        .error (.fault (machine.memory.outOfRange address 4)) machine
      else if ¬ machine.memory.Contains (address + 4) 4 then
        .error (.fault (machine.memory.outOfRange (address + 4) 4)) machine
      else
        .ok () (((machine.withBase transfer (machine.adjustedBase transfer)).assign
          transfer.valueRegister (Word.ofInt (machine.memory.valueAt address.toNat 4))).assign
          (transfer.valueRegister + 1)
          (Word.ofInt (machine.memory.valueAt (address + 4).toNat 4))) := by
  simp only [load, if_true, EStateM.run_bind, run_checkPair]
  by_cases pairs : transfer.PairsRegisters
  · simp only [pairs, not_true_eq_false, if_true, if_false, run_readMemory,
      run_addresses wellFormed.baseNames wellFormed.offsetFits]
    by_cases first : machine.memory.Contains (machine.accessAddress transfer).toInt 4
    · by_cases second : machine.memory.Contains ((machine.accessAddress transfer).toInt + 4) 4
      · simp only [first, second, not_true_eq_false, if_true, if_false,
          run_writeBack _ wellFormed.baseNames, run_writeRegister _ wellFormed.valueNames]
        exact run_writeRegister _ (pairs.nextNames wellFormed.valueNames)
      · simp only [first, second, not_true_eq_false, not_false_eq_true, if_true, if_false]
    · simp only [first, not_false_eq_true, if_true, if_false]
  · simp only [pairs, not_false_eq_true, if_true, if_false]

theorem run_store {size : StoreSize} {width : Nat} {transfer : Transfer}
    (found : size.accessWidth = .ok width) (wellFormed : transfer.WellFormed size.isLong) :
    (store size transfer).run machine =
      let address := (machine.accessAddress transfer).toInt
      if machine.memory.Contains address width then
        .ok () ((machine.withStored address width
          (machine.valueOf transfer.valueRegister)).withBase transfer
          (machine.adjustedBase transfer))
      else .error (.fault (machine.memory.outOfRange address width)) machine := by
  simp only [store, if_neg (StoreSize.single_of_accessWidth found), EStateM.run_bind,
    run_writeMemory, run_addresses wellFormed.baseNames wellFormed.offsetFits,
    run_readRegister wellFormed.valueNames, found, run_liftMisuse_ok]
  by_cases inside : machine.memory.Contains (machine.accessAddress transfer).toInt width
  · simp only [if_pos inside]
    exact run_writeBack _ wellFormed.baseNames
  · simp only [if_neg inside]

/-- A store of a double word writes the first word before it knows whether the
second one has a place. -/
theorem run_store_doubleWord {transfer : Transfer} (wellFormed : transfer.WellFormed false) :
    (store .doubleWord transfer).run machine =
      let address := (machine.accessAddress transfer).toInt
      let firstStored := machine.withStored address 4 (machine.valueOf transfer.valueRegister)
      if ¬ transfer.PairsRegisters then
        .error (.naming transfer.valueRegister (.unpairedRegister .store)) machine
      else if ¬ machine.memory.Contains address 4 then
        .error (.fault (machine.memory.outOfRange address 4)) machine
      else if ¬ machine.memory.Contains (address + 4) 4 then
        .error (.fault (machine.memory.outOfRange (address + 4) 4)) firstStored
      else
        .ok () ((firstStored.withStored (address + 4) 4
          (machine.valueOf (transfer.valueRegister + 1))).withBase transfer
          (machine.adjustedBase transfer)) := by
  simp only [store, if_true, EStateM.run_bind, run_checkPair]
  by_cases pairs : transfer.PairsRegisters
  · simp only [pairs, not_true_eq_false, if_true, if_false, run_writeMemory,
      run_addresses wellFormed.baseNames wellFormed.offsetFits,
      run_readRegister wellFormed.valueNames,
      run_readRegister (pairs.nextNames wellFormed.valueNames)]
    by_cases first : machine.memory.Contains (machine.accessAddress transfer).toInt 4
    · simp only [first, not_true_eq_false, if_true, if_false,
        Machine.withStored_contains, Machine.withStored_outOfRange]
      by_cases second : machine.memory.Contains ((machine.accessAddress transfer).toInt + 4) 4
      · simp only [second, not_true_eq_false, if_true, if_false]
        exact run_writeBack _ wellFormed.baseNames
      · simp only [second, not_false_eq_true, if_true, if_false]
    · simp only [first, not_false_eq_true, if_true, if_false]
  · simp only [pairs, not_false_eq_true, if_true, if_false]

/-! ## System calls -/

theorem run_writeCall :
    writeCall.run machine =
      if machine.valueOf 0 ≠ SystemCall.standardOutput then
        .error (.fault (.unsupportedDescriptor (machine.valueOf 0))) machine
      else if machine.console?.isNone then .error (.fault .noConsole) machine
      else
        match machine.memory.readString (machine.valueOf 1).toInt with
        | .ok bytes => .ok () (machine.withOutput (SystemCall.textOf bytes))
        | .error fault => .error (.fault fault) machine := by
  have descriptorNames : IsRegister 0 := by decide
  have addressNames : IsRegister 1 := by decide
  simp only [writeCall, EStateM.run_bind, run_readRegister descriptorNames,
    run_readRegister addressNames]
  split
  · rfl
  · simp only [EStateM.run_bind, EStateM.run_get]
    split
    · rfl
    · simp only [EStateM.run_bind, EStateM.run_get, run_liftFault]
      cases machine.memory.readString (machine.valueOf 1).toInt <;> rfl

theorem run_systemCall :
    systemCall.run machine =
      match SystemCall.ofNumber? (machine.operandValue Register.callNumber) with
      | some .exit => .ok () machine.halt
      | some .write => writeCall.run machine
      | none =>
          .error (.fault (.unknownSystemCall (machine.operandValue Register.callNumber)))
            machine := by
  have callNames := isRegister_number Register.callNumber
  simp only [systemCall, EStateM.run_bind, run_readRegister callNames, Machine.valueOf_number]
  cases SystemCall.ofNumber? (machine.operandValue Register.callNumber) with
  | none => rfl
  | some call => cases call <;> rfl

/-! ## Instructions -/

/-- The program counter moves on whether or not the condition holds. -/
theorem run_execute (instruction : Instruction) :
    (execute instruction).run machine =
      if instruction.condition.holds machine.flags then
        (perform instruction.operation).run machine.advance
      else .ok () machine.advance := by
  simp only [execute, EStateM.run_bind, EStateM.run_modify, EStateM.run_get]
  change (if instruction.condition.holds machine.flags = true then
      perform instruction.operation else pure ()).run machine.advance = _
  split <;> rfl

theorem run_executeWord {word : Int} {instruction : Instruction}
    (decoded : Instruction.decode word = .ok instruction) (machine : Machine) :
    (executeWord word).run machine = (execute instruction).run machine := by
  rw [executeWord, decoded]
  rfl

theorem run_executeWord_always {word : Int} {operation : Operation}
    (decoded : Instruction.decode word = .ok ⟨.always, operation⟩) (machine : Machine) :
    (executeWord word).run machine = (perform operation).run machine.advance :=
  (run_executeWord decoded machine).trans (run_execute _)

end Action

end Arm32
