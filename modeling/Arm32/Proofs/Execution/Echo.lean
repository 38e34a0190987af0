import Arm32.Machine.Execute

namespace Arm32

/-! The copy of the output. No action depends on whether the text that a program writes is
copied: with the copy left out of the machine, it does the same to everything else. -/

def Console.unechoed (console : Console) : Console :=
  { console with copy? := none }

/-- The machine with the same console, which keeps no copy. -/
def Machine.unechoed (machine : Machine) : Machine :=
  { machine with console? := machine.console?.map Console.unechoed }

namespace Action

/-- The result with the copy left out. -/
def withoutEcho {α : Type} :
    EStateM.Result Failure Machine α → EStateM.Result Failure Machine α
  | .ok value after => .ok value after.unechoed
  | .error failure after => .error failure after.unechoed

def IgnoresEcho {α : Type} (action : Action α) : Prop :=
  ∀ machine, action.run machine.unechoed = withoutEcho (action.run machine)

variable {α β : Type}

/-! ## Actions made of others -/

theorem ignoresEcho_pure (value : α) : IgnoresEcho (pure value) :=
  fun _ => rfl

theorem ignoresEcho_throw (failure : Failure) : IgnoresEcho (throw failure : Action α) :=
  fun _ => rfl

theorem ignoresEcho_modify {change : Machine → Machine}
    (commutes : ∀ machine, change machine.unechoed = (change machine).unechoed) :
    IgnoresEcho (modify change) := by
  intro machine
  exact congrArg (EStateM.Result.ok ()) (commutes machine)

/-- What is read off the machine must not be the copy. -/
theorem ignoresEcho_get {next : Machine → Action α}
    (same : ∀ machine, next machine.unechoed = next machine)
    (ignores : ∀ machine, IgnoresEcho (next machine)) : IgnoresEcho (get >>= next) := by
  intro machine
  change (next machine.unechoed).run machine.unechoed = withoutEcho ((next machine).run machine)
  rw [same, ignores machine machine]

theorem IgnoresEcho.bind {first : Action α} {next : α → Action β} (ignores : IgnoresEcho first)
    (nextIgnores : ∀ value, IgnoresEcho (next value)) : IgnoresEcho (first >>= next) := by
  intro machine
  rw [EStateM.run_bind, EStateM.run_bind, ignores machine]
  cases first.run machine with
  | ok value after => exact nextIgnores value after
  | error failure after => rfl

theorem IgnoresEcho.ite {condition : Prop} [Decidable condition] {first second : Action α}
    (ignores : IgnoresEcho first) (secondIgnores : IgnoresEcho second) :
    IgnoresEcho (if condition then first else second) := by
  split
  · exact ignores
  · exact secondIgnores

theorem ignoresEcho_liftFault (result : Except Fault α) : IgnoresEcho (liftFault result) := by
  cases result with
  | ok value => exact ignoresEcho_pure value
  | error fault => exact ignoresEcho_throw (.fault fault)

theorem ignoresEcho_liftMisuse (result : Except Misuse α) : IgnoresEcho (liftMisuse result) := by
  cases result with
  | ok value => exact ignoresEcho_pure value
  | error misuse => exact ignoresEcho_throw (.misuse misuse)

/-! ## Registers, flags and memory -/

theorem ignoresEcho_registerNumbered (number : Int) : IgnoresEcho (registerNumbered number) := by
  rw [registerNumbered]
  cases Register.ofNumber? number with
  | some register => exact ignoresEcho_pure register
  | none => exact ignoresEcho_throw _

theorem ignoresEcho_readRegister (number : Int) : IgnoresEcho (readRegister number) :=
  (ignoresEcho_registerNumbered number).bind fun _ =>
    ignoresEcho_get (fun _ => rfl) fun _ => ignoresEcho_pure _

theorem ignoresEcho_writeRegister (number : Int) (value : Word) :
    IgnoresEcho (writeRegister number value) :=
  (ignoresEcho_registerNumbered number).bind fun _ => ignoresEcho_modify fun _ => rfl

theorem ignoresEcho_setFlags (negative? zero? carry? overflow? : Option Bool) :
    IgnoresEcho (setFlags negative? zero? carry? overflow?) :=
  ignoresEcho_modify fun _ => rfl

theorem ignoresEcho_setProgramCounter (value : Word) :
    IgnoresEcho (modify (·.setProgramCounter value)) :=
  ignoresEcho_modify fun _ => rfl

theorem ignoresEcho_halt : IgnoresEcho (modify Machine.halt) :=
  ignoresEcho_modify fun _ => rfl

theorem ignoresEcho_readMemory (address : Int) (width : Nat) :
    IgnoresEcho (readMemory address width) :=
  ignoresEcho_get (fun _ => rfl) fun _ => ignoresEcho_liftFault _

theorem ignoresEcho_writeMemory (address : Int) (width : Nat) (value : Int) :
    IgnoresEcho (writeMemory address width value) := by
  intro machine
  unfold writeMemory loadMemory
  dsimp only [EStateM.run]
  by_cases inside : machine.memory.Contains address (LittleEndian.toBytes width value).length
  · have insideAgain : machine.unechoed.memory.Contains address
        (LittleEndian.toBytes width value).length := inside
    rw [if_pos inside, if_pos insideAgain]
    rfl
  · have outside : ¬ machine.unechoed.memory.Contains address
        (LittleEndian.toBytes width value).length := inside
    rw [if_neg inside, if_neg outside]
    rfl

/-! ## Operands -/

theorem ignoresEcho_shiftBy (kind : ShiftKind) (value : Word) (amount : Int) :
    IgnoresEcho (shiftBy kind value amount) :=
  ignoresEcho_get (fun _ => rfl) fun _ => ignoresEcho_liftMisuse _

theorem ignoresEcho_shiftedRegister (register : Int) (kind : ShiftKind) (amount : ShiftAmount) :
    IgnoresEcho (shiftedRegister register kind amount) := by
  cases amount with
  | immediate amount =>
      refine (ignoresEcho_readRegister register).bind fun value => .ite ?_ ?_
      · exact ignoresEcho_get (fun _ => rfl) fun _ => ignoresEcho_pure _
      · exact ignoresEcho_shiftBy kind value _
  | register amountRegister =>
      exact (ignoresEcho_readRegister amountRegister).bind fun amount =>
        (ignoresEcho_readRegister register).bind fun value => ignoresEcho_shiftBy kind value _

theorem ignoresEcho_operand (source : Operand) : IgnoresEcho (operand source) := by
  cases source with
  | immediate value carry rotation =>
      exact ignoresEcho_get (fun _ => rfl) fun _ => ignoresEcho_pure _
  | register register kind amount => exact ignoresEcho_shiftedRegister register kind amount

/-! ## Transfers -/

theorem ignoresEcho_offsetValue (offset : Offset) : IgnoresEcho (offsetValue offset) := by
  cases offset with
  | immediate value => exact ignoresEcho_pure value
  | register register kind amount =>
      exact (ignoresEcho_readRegister register).bind fun value =>
        (ignoresEcho_shiftBy kind value _).bind fun _ => ignoresEcho_pure _

theorem ignoresEcho_addresses (transfer : Transfer) : IgnoresEcho (addresses transfer) :=
  (ignoresEcho_readRegister transfer.baseRegister).bind fun _ =>
    (ignoresEcho_offsetValue transfer.offset).bind fun _ => ignoresEcho_pure _

theorem ignoresEcho_writeBack (transfer : Transfer) (adjusted : Word) :
    IgnoresEcho (writeBack transfer adjusted) :=
  .ite (ignoresEcho_writeRegister _ adjusted) (ignoresEcho_pure ())

theorem ignoresEcho_checkPair (direction : TransferDirection) (transfer : Transfer) :
    IgnoresEcho (checkPair direction transfer) :=
  .ite (ignoresEcho_pure ()) (ignoresEcho_throw _)

theorem ignoresEcho_load (size : LoadSize) (transfer : Transfer) :
    IgnoresEcho (load size transfer) := by
  refine .ite ?_ ?_
  · exact (ignoresEcho_checkPair .load transfer).bind fun _ =>
      (ignoresEcho_addresses transfer).bind fun place =>
      (ignoresEcho_readMemory place.access.toInt 4).bind fun _ =>
      (ignoresEcho_readMemory (place.access.toInt + 4) 4).bind fun _ =>
      (ignoresEcho_writeBack transfer place.adjusted).bind fun _ =>
      (ignoresEcho_writeRegister transfer.valueRegister _).bind fun _ =>
      ignoresEcho_writeRegister (transfer.valueRegister + 1) _
  · exact (ignoresEcho_addresses transfer).bind fun place =>
      (ignoresEcho_liftMisuse size.access).bind fun entry =>
      (ignoresEcho_readMemory place.access.toInt entry.width).bind fun _ =>
      (ignoresEcho_writeBack transfer place.adjusted).bind fun _ =>
      ignoresEcho_writeRegister transfer.valueRegister _

theorem ignoresEcho_store (size : StoreSize) (transfer : Transfer) :
    IgnoresEcho (store size transfer) := by
  refine .ite ?_ ?_
  · exact (ignoresEcho_checkPair .store transfer).bind fun _ =>
      (ignoresEcho_addresses transfer).bind fun place =>
      (ignoresEcho_readRegister transfer.valueRegister).bind fun low =>
      (ignoresEcho_readRegister (transfer.valueRegister + 1)).bind fun high =>
      (ignoresEcho_writeMemory place.access.toInt 4 low.toInt).bind fun _ =>
      (ignoresEcho_writeMemory (place.access.toInt + 4) 4 high.toInt).bind fun _ =>
      ignoresEcho_writeBack transfer place.adjusted
  · exact (ignoresEcho_addresses transfer).bind fun place =>
      (ignoresEcho_readRegister transfer.valueRegister).bind fun value =>
      (ignoresEcho_liftMisuse size.accessWidth).bind fun width =>
      (ignoresEcho_writeMemory place.access.toInt width value.toInt).bind fun _ =>
      ignoresEcho_writeBack transfer place.adjusted

/-! ## System calls -/

theorem ignoresEcho_writeText (text : String) : IgnoresEcho (writeText text) := by
  refine ignoresEcho_modify fun machine => ?_
  rcases machine with ⟨memory, registers, flags, halted, console?⟩
  cases console? <;> rfl

theorem ignoresEcho_writeCall : IgnoresEcho writeCall := by
  refine (ignoresEcho_readRegister 0).bind fun descriptor =>
    (ignoresEcho_readRegister 1).bind fun address => .ite (ignoresEcho_throw _) ?_
  refine ignoresEcho_get (fun machine => ?_) fun machine => .ite (ignoresEcho_throw _) ?_
  · rcases machine with ⟨memory, registers, flags, halted, console?⟩
    cases console? <;> rfl
  · exact ignoresEcho_get (fun _ => rfl) fun _ => (ignoresEcho_liftFault _).bind fun _ =>
      ignoresEcho_writeText _

theorem ignoresEcho_systemCall : IgnoresEcho systemCall := by
  refine (ignoresEcho_readRegister _).bind fun number => ?_
  cases SystemCall.ofNumber? number with
  | none => exact ignoresEcho_throw _
  | some call =>
      cases call with
      | exit => exact ignoresEcho_halt
      | write => exact ignoresEcho_writeCall

/-! ## Instructions -/

theorem ignoresEcho_writeResult (destination : Int) (result : DataResult) (setsFlags : Bool) :
    IgnoresEcho (writeResult destination result setsFlags) := by
  refine (ignoresEcho_writeRegister destination _).bind fun _ => .ite ?_ ?_
  · exact ignoresEcho_setFlags _ _ _ _
  · exact ignoresEcho_pure ()

theorem ignoresEcho_branch (offset : Int) (link : Bool) : IgnoresEcho (branch offset link) := by
  refine ignoresEcho_get (fun _ => rfl) fun machine => ?_
  have leaves (origin destination : Word) : IgnoresEcho
      (if destination = origin then modify Machine.halt
      else modify (·.setProgramCounter destination)) :=
    .ite ignoresEcho_halt (ignoresEcho_setProgramCounter destination)
  refine .ite ?_ (leaves _ _)
  exact (ignoresEcho_writeRegister _ machine.programCounter).bind fun _ => leaves _ _

theorem ignoresEcho_perform (operation : Operation) : IgnoresEcho (perform operation) := by
  cases operation with
  | combine operator destination source second setsFlags =>
      exact (ignoresEcho_operand second).bind fun _ => (ignoresEcho_readRegister source).bind
        fun _ => ignoresEcho_get (fun _ => rfl) fun _ => ignoresEcho_writeResult _ _ _
  | compare source second =>
      exact (ignoresEcho_operand second).bind fun _ => (ignoresEcho_readRegister source).bind
        fun _ => ignoresEcho_setFlags _ _ _ _
  | move inverted destination source setsFlags =>
      exact (ignoresEcho_operand source).bind fun _ => ignoresEcho_writeResult _ _ _
  | moveHalf half destination immediate =>
      cases half with
      | low => exact ignoresEcho_writeRegister destination _
      | high => exact (ignoresEcho_readRegister destination).bind fun _ =>
          ignoresEcho_writeRegister destination _
  | branch offset link => exact ignoresEcho_branch offset link
  | branchExchange register =>
      exact (ignoresEcho_readRegister register).bind fun _ => ignoresEcho_setProgramCounter _
  | load size transfer => exact ignoresEcho_load size transfer
  | store size transfer => exact ignoresEcho_store size transfer
  | supervisorCall immediate => exact ignoresEcho_systemCall
  | undefined => exact ignoresEcho_get (fun _ => rfl) fun _ => ignoresEcho_throw _

/-- An instruction does the same whether or not the output is copied. -/
theorem ignoresEcho_execute (instruction : Instruction) : IgnoresEcho (execute instruction) := by
  have advances : IgnoresEcho (modify Machine.advance) := ignoresEcho_modify fun _ => rfl
  refine advances.bind fun _ => ignoresEcho_get (fun _ => rfl) fun machine => ?_
  exact .ite (ignoresEcho_perform instruction.operation) (ignoresEcho_pure ())

end Action

end Arm32
