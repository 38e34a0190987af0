import Arm32.Image
import Arm32.Machine.Execute
import Arm32.Proofs.Execution.Effects
import Mathlib.Logic.Relation

namespace Arm32

/-! What actions can do to a machine. Whatever an action is asked for, and whether it
succeeds or fails, it changes the machine by a few small changes, one after the other. What
every one of these keeps, all actions keep. -/

namespace Machine

/-- The smallest changes of a machine. -/
inductive Change : Machine → Machine → Prop where
  | register (machine : Machine) (index : Register) (value : Word) :
      Change machine (machine.setRegister index value)
  | flags (machine : Machine) (flags : Flags) : Change machine { machine with flags }
  | memory (machine : Machine) (address : Nat) (block : List UInt8) :
      Change machine { machine with memory := machine.memory.setBytes address block }
  | halt (machine : Machine) : Change machine machine.halt
  | console (machine : Machine) (console? : Option Console) :
      Change machine { machine with console? }

/-- A machine comes to be another one by some changes. -/
def Evolves : Machine → Machine → Prop :=
  Relation.ReflTransGen Change

theorem Evolves.size {before after : Machine} (evolves : before.Evolves after) :
    after.memory.size = before.memory.size := by
  induction evolves with
  | refl => rfl
  | tail earlier change induction =>
      rw [← induction]
      cases change with
      | memory address block => exact Memory.size_setBytes _ _ _
      | _ => rfl

/-- No change sets a machine going again. -/
theorem Evolves.halted {before after : Machine} (evolves : before.Evolves after)
    (stopped : before.halted = true) : after.halted = true := by
  induction evolves with
  | refl => exact stopped
  | tail earlier change induction =>
      cases change with
      | halt => rfl
      | _ => exact induction

end Machine

namespace Action

/-- An action that changes the machine in no other way, even if it fails. -/
def Evolves {α : Type} (action : Action α) : Prop :=
  ∀ machine : Machine, machine.Evolves (machineLeft (action.run machine))

variable {α β : Type}

/-! ## Actions made of others -/

theorem evolves_pure (value : α) : Evolves (pure value) :=
  fun _ => .refl

theorem evolves_throw (failure : Failure) : Evolves (throw failure : Action α) :=
  fun _ => .refl

theorem evolves_modify {change : Machine → Machine}
    (changes : ∀ machine : Machine, machine.Change (change machine)) : Evolves (modify change) :=
  fun machine => .single (changes machine)

theorem evolves_get {next : Machine → Action α} (evolves : ∀ machine, Evolves (next machine)) :
    Evolves (get >>= next) :=
  fun machine => evolves machine machine

theorem Evolves.bind {first : Action α} {next : α → Action β} (evolves : Evolves first)
    (nextEvolves : ∀ value, Evolves (next value)) : Evolves (first >>= next) := by
  intro machine
  have begun := evolves machine
  rw [EStateM.run_bind]
  cases ran : first.run machine with
  | ok value after =>
      rw [ran] at begun
      exact begun.trans (nextEvolves value after)
  | error failure after =>
      rw [ran] at begun
      exact begun

theorem Evolves.ite {condition : Prop} [Decidable condition] {first second : Action α}
    (evolves : Evolves first) (secondEvolves : Evolves second) :
    Evolves (if condition then first else second) := by
  split
  · exact evolves
  · exact secondEvolves

theorem evolves_liftFault (result : Except Fault α) : Evolves (liftFault result) := by
  cases result with
  | ok value => exact evolves_pure value
  | error fault => exact evolves_throw (.fault fault)

theorem evolves_liftFailure (result : Except Failure α) : Evolves (liftFailure result) := by
  cases result with
  | ok value => exact evolves_pure value
  | error failure => exact evolves_throw failure

theorem evolves_liftMisuse (result : Except Misuse α) : Evolves (liftMisuse result) := by
  cases result with
  | ok value => exact evolves_pure value
  | error misuse => exact evolves_throw (.misuse misuse)

theorem evolves_forM {items : List α} {action : α → Action Unit}
    (evolves : ∀ item, Evolves (action item)) : Evolves (items.forM action) := by
  induction items with
  | nil => exact evolves_pure ()
  | cons item rest induction => exact (evolves item).bind fun _ => induction

/-! ## Registers, flags, memory and console -/

theorem evolves_registerNumbered (number : Int) : Evolves (registerNumbered number) := by
  rw [registerNumbered]
  cases Register.ofNumber? number with
  | some register => exact evolves_pure register
  | none => exact evolves_throw _

theorem evolves_readRegister (number : Int) : Evolves (readRegister number) :=
  (evolves_registerNumbered number).bind fun _ => evolves_get fun _ => evolves_pure _

theorem evolves_writeRegister (number : Int) (value : Word) :
    Evolves (writeRegister number value) :=
  (evolves_registerNumbered number).bind fun register =>
    evolves_modify fun machine => .register machine register value

theorem evolves_setProgramCounter (value : Word) : Evolves (modify (·.setProgramCounter value)) :=
  evolves_modify fun machine => .register machine Register.programCounter value

theorem evolves_setFlags (negative? zero? carry? overflow? : Option Bool) :
    Evolves (setFlags negative? zero? carry? overflow?) :=
  evolves_modify fun machine => .flags machine _

theorem evolves_halt : Evolves (modify Machine.halt) :=
  evolves_modify .halt

theorem evolves_readMemory (address : Int) (width : Nat) : Evolves (readMemory address width) :=
  evolves_get fun _ => evolves_liftFault _

/-- A block that does not fit into memory changes nothing. -/
theorem evolves_loadMemory (block : List UInt8) (address : Int) :
    Evolves (loadMemory block address) := by
  intro machine
  rw [run_loadMemory]
  split
  · exact .single (.memory machine address.toNat block)
  · exact .refl

theorem evolves_writeMemory (address : Int) (width : Nat) (value : Int) :
    Evolves (writeMemory address width value) :=
  evolves_loadMemory _ address

theorem evolves_writeText (text : String) : Evolves (writeText text) :=
  evolves_modify fun machine => .console machine _

/-! ## Operands -/

theorem evolves_shiftBy (kind : ShiftKind) (value : Word) (amount : Int) :
    Evolves (shiftBy kind value amount) :=
  evolves_get fun _ => evolves_liftMisuse _

theorem evolves_shiftedRegister (register : Int) (kind : ShiftKind) (amount : ShiftAmount) :
    Evolves (shiftedRegister register kind amount) := by
  cases amount with
  | immediate amount =>
      refine (evolves_readRegister register).bind fun value => .ite ?_ ?_
      · exact evolves_get fun _ => evolves_pure _
      · exact evolves_shiftBy kind value _
  | register amountRegister =>
      exact (evolves_readRegister amountRegister).bind fun amount =>
        (evolves_readRegister register).bind fun value => evolves_shiftBy kind value _

theorem evolves_operand (source : Operand) : Evolves (operand source) := by
  cases source with
  | immediate value carry rotation => exact evolves_get fun _ => evolves_pure _
  | register register kind amount => exact evolves_shiftedRegister register kind amount

/-! ## Transfers -/

theorem evolves_offsetValue (offset : Offset) : Evolves (offsetValue offset) := by
  cases offset with
  | immediate value => exact evolves_pure value
  | register register kind amount =>
      exact (evolves_readRegister register).bind fun value =>
        (evolves_shiftBy kind value _).bind fun _ => evolves_pure _

theorem evolves_addresses (transfer : Transfer) : Evolves (addresses transfer) :=
  (evolves_readRegister transfer.baseRegister).bind fun _ =>
    (evolves_offsetValue transfer.offset).bind fun _ => evolves_pure _

theorem evolves_writeBack (transfer : Transfer) (adjusted : Word) :
    Evolves (writeBack transfer adjusted) :=
  .ite (evolves_writeRegister _ adjusted) (evolves_pure ())

theorem evolves_checkPair (direction : TransferDirection) (transfer : Transfer) :
    Evolves (checkPair direction transfer) :=
  .ite (evolves_pure ()) (evolves_throw _)

theorem evolves_load (size : LoadSize) (transfer : Transfer) : Evolves (load size transfer) := by
  refine .ite ?_ ?_
  · exact (evolves_checkPair .load transfer).bind fun _ =>
      (evolves_addresses transfer).bind fun place =>
      (evolves_readMemory place.access.toInt 4).bind fun _ =>
      (evolves_readMemory (place.access.toInt + 4) 4).bind fun _ =>
      (evolves_writeBack transfer place.adjusted).bind fun _ =>
      (evolves_writeRegister transfer.valueRegister _).bind fun _ =>
      evolves_writeRegister (transfer.valueRegister + 1) _
  · exact (evolves_addresses transfer).bind fun place =>
      (evolves_liftMisuse size.access).bind fun entry =>
      (evolves_readMemory place.access.toInt entry.width).bind fun _ =>
      (evolves_writeBack transfer place.adjusted).bind fun _ =>
      evolves_writeRegister transfer.valueRegister _

theorem evolves_store (size : StoreSize) (transfer : Transfer) : Evolves (store size transfer) := by
  refine .ite ?_ ?_
  · exact (evolves_checkPair .store transfer).bind fun _ =>
      (evolves_addresses transfer).bind fun place =>
      (evolves_readRegister transfer.valueRegister).bind fun low =>
      (evolves_readRegister (transfer.valueRegister + 1)).bind fun high =>
      (evolves_writeMemory place.access.toInt 4 low.toInt).bind fun _ =>
      (evolves_writeMemory (place.access.toInt + 4) 4 high.toInt).bind fun _ =>
      evolves_writeBack transfer place.adjusted
  · exact (evolves_addresses transfer).bind fun place =>
      (evolves_readRegister transfer.valueRegister).bind fun value =>
      (evolves_liftMisuse size.accessWidth).bind fun width =>
      (evolves_writeMemory place.access.toInt width value.toInt).bind fun _ =>
      evolves_writeBack transfer place.adjusted

/-! ## Instructions -/

theorem evolves_writeCall : Evolves writeCall := by
  refine (evolves_readRegister 0).bind fun descriptor =>
    (evolves_readRegister 1).bind fun address => .ite (evolves_throw _) ?_
  refine evolves_get fun machine => .ite (evolves_throw _) ?_
  exact evolves_get fun _ => (evolves_liftFault _).bind fun _ => evolves_writeText _

theorem evolves_systemCall : Evolves systemCall := by
  refine (evolves_readRegister _).bind fun number => ?_
  cases SystemCall.ofNumber? number with
  | none => exact evolves_throw _
  | some call =>
      cases call with
      | exit => exact evolves_halt
      | write => exact evolves_writeCall

theorem evolves_writeResult (destination : Int) (result : DataResult) (setsFlags : Bool) :
    Evolves (writeResult destination result setsFlags) := by
  refine (evolves_writeRegister destination _).bind fun _ => .ite ?_ ?_
  · exact evolves_setFlags _ _ _ _
  · exact evolves_pure ()

theorem evolves_branch (offset : Int) (link : Bool) : Evolves (branch offset link) := by
  refine evolves_get fun machine => ?_
  have leaves (origin destination : Word) : Evolves
      (if destination = origin then modify Machine.halt
      else modify (·.setProgramCounter destination)) :=
    .ite evolves_halt (evolves_setProgramCounter destination)
  refine .ite ?_ (leaves _ _)
  exact (evolves_writeRegister _ machine.programCounter).bind fun _ => leaves _ _

theorem evolves_perform (operation : Operation) : Evolves (perform operation) := by
  cases operation with
  | combine operator destination source second setsFlags =>
      exact (evolves_operand second).bind fun _ => (evolves_readRegister source).bind fun _ =>
        evolves_get fun _ => evolves_writeResult _ _ _
  | compare source second =>
      exact (evolves_operand second).bind fun _ => (evolves_readRegister source).bind fun _ =>
        evolves_setFlags _ _ _ _
  | move inverted destination source setsFlags =>
      exact (evolves_operand source).bind fun _ => evolves_writeResult _ _ _
  | moveHalf half destination immediate =>
      cases half with
      | low => exact evolves_writeRegister destination _
      | high => exact (evolves_readRegister destination).bind fun _ =>
          evolves_writeRegister destination _
  | branch offset link => exact evolves_branch offset link
  | branchExchange register =>
      exact (evolves_readRegister register).bind fun _ => evolves_setProgramCounter _
  | load size transfer => exact evolves_load size transfer
  | store size transfer => exact evolves_store size transfer
  | supervisorCall immediate => exact evolves_systemCall
  | undefined => exact evolves_get fun _ => evolves_throw _

theorem evolves_execute (instruction : Instruction) : Evolves (execute instruction) := by
  have advances : Evolves (modify Machine.advance) :=
    evolves_modify fun machine => .register machine Register.programCounter _
  refine advances.bind fun _ => evolves_get fun machine => ?_
  exact .ite (evolves_perform instruction.operation) (evolves_pure ())

theorem evolves_executeWord (word : Int) : Evolves (executeWord word) :=
  (evolves_liftFailure _).bind fun instruction => evolves_execute instruction

theorem evolves_step : Evolves step :=
  evolves_get fun _ => (evolves_readMemory _ 4).bind fun _ => evolves_executeWord _

theorem evolves_loadImage (image : Image) : Evolves (loadImage image) := by
  refine evolves_get fun machine => .ite (evolves_throw _) ?_
  refine (evolves_loadMemory image 0).bind fun _ => .ite ?_ ?_
  · exact (evolves_setProgramCounter _).bind fun _ => evolves_get fun _ => evolves_pure _
  · exact evolves_get fun _ => evolves_pure _

end Action

end Arm32
