import Arm32.Proofs.Bare.Memory
import Arm32.Proofs.Execution.Effects

namespace Arm32

/-! A machine in bare numbers. Its registers are a list of integers, and only the masks of
the code that writes them keep each one within a word. Actions in bare numbers show what
actions on a machine do: from the numbers of a machine they lead to the numbers of the machine
that the action leaves, whether it succeeds or fails. -/

namespace Bare

structure Machine where
  memory : Memory
  registers : List Int := List.replicate 16 0
  flags : Flags := {}
  halted : Bool := false
  console? : Option Console := none
deriving DecidableEq, Repr

abbrev Action := EStateM Failure Machine

namespace Action

def fail {α : Type} (failure : Arm32.Failure) : Action α :=
  throw (.machine failure)

def lift {α : Type} (result : Except Failure α) : Action α :=
  match result with
  | .ok value => pure value
  | .error failure => throw failure

def liftMisuse {α : Type} (result : Except Misuse α) : Action α :=
  match result with
  | .ok value => pure value
  | .error misuse => fail (.misuse misuse)

/-! ## Registers -/

/-- An entry of the register file, which has to be there. -/
def entry (index : Nat) : Action Int := do
  match (← get).registers[index]? with
  | some value => pure value
  | none => throw (.missingRegister index)

/-- Puts a number into the register file as it is. -/
def setEntry (index : Nat) (value : Int) : Action Unit := fun machine =>
  if index < machine.registers.length then
    .ok () { machine with registers := machine.registers.set index value }
  else .error (.missingRegister index) machine

def checkRegister (register : Int) : Action Nat :=
  if 0 ≤ register ∧ register < 16 then pure register.toNat
  else fail (.misuse (.invalidRegister register))

/-- Reads a register as an operand: the program counter is one instruction further on. -/
def getRegister (register : Int) : Action Int := do
  let index ← checkRegister register
  let value ← entry index
  return if index = 15 then (value + 4) % 0x100000000 else value

def setRegister (register value : Int) : Action Unit := do
  let index ← checkRegister register
  setEntry index (value % 0x100000000)

def programCounter : Action Int :=
  entry 15

def setProgramCounter (value : Int) : Action Unit :=
  setEntry 15 (value % 0x100000000)

/-! ## Flags, memory and console -/

def setFlags (negative? zero? carry? overflow? : Option Bool) : Action Unit :=
  modify fun machine =>
    { machine with flags := machine.flags.update negative? zero? carry? overflow? }

def halt : Action Unit :=
  modify fun machine => { machine with halted := true }

def readMemory (address : Int) (width : Nat) : Action Int := do
  lift ((← get).memory.read address width)

def writeMemory (address : Int) (width : Nat) (value : Int) : Action Unit := do
  let memory ← lift ((← get).memory.write address width value)
  modify ({ · with memory })

def loadMemory (block : List Int) (address : Int) : Action Unit := do
  let memory ← lift ((← get).memory.load block address)
  modify ({ · with memory })

def writeText (text : String) : Action Unit :=
  modify fun machine => { machine with console? := machine.console?.map (·.write text) }

end Action

end Bare

/-! ## Showing actions -/

/-- A machine in bare numbers. -/
def Machine.toBare (machine : Machine) : Bare.Machine where
  memory := machine.memory.toBare
  registers := machine.registers.toList.map Word.toInt
  flags := machine.flags
  halted := machine.halted
  console? := machine.console?

namespace Bare.Action

variable {α β γ δ : Type}

/-- What an action comes to, in bare numbers. -/
def resultShown (shown : α → β) :
    EStateM.Result Arm32.Failure Arm32.Machine α → EStateM.Result Failure Machine β
  | .ok value after => .ok (shown value) after.toBare
  | .error failure after => .error (.machine failure) after.toBare

/-- The first action does in bare numbers what the second one does, and gives what is shown
of its value. -/
def Shows (bare : Action β) (action : Arm32.Action α) (shown : α → β) : Prop :=
  ∀ machine : Arm32.Machine, bare.run machine.toBare = resultShown shown (action.run machine)

theorem shows_pure (value : α) (shown : α → β) :
    Shows (pure (shown value)) (pure value) shown :=
  fun _ => rfl

theorem shows_fail (failure : Arm32.Failure) (shown : α → β) :
    Shows (fail failure) (throw failure) shown :=
  fun _ => rfl

theorem shows_get : Shows get get Arm32.Machine.toBare :=
  fun _ => rfl

theorem shows_modify {bareChange : Machine → Machine}
    {change : Arm32.Machine → Arm32.Machine}
    (same : ∀ machine : Arm32.Machine, bareChange machine.toBare = (change machine).toBare) :
    Shows (modify bareChange) (modify change) id :=
  fun machine => congrArg (EStateM.Result.ok ()) (same machine)

theorem Shows.bind {bare : Action β} {action : Arm32.Action α} {shown : α → β}
    {bareNext : β → Action δ} {next : α → Arm32.Action γ} {shownNext : γ → δ}
    (shows : Shows bare action shown)
    (showsNext : ∀ value, Shows (bareNext (shown value)) (next value) shownNext) :
    Shows (bare >>= bareNext) (action >>= next) shownNext := by
  intro machine
  rw [EStateM.run_bind, EStateM.run_bind, shows machine]
  cases action.run machine with
  | ok value after => exact showsNext value after
  | error failure after => rfl

theorem Shows.ite {condition bareCondition : Prop} [Decidable condition]
    [Decidable bareCondition] {bareFirst bareSecond : Action β}
    {first second : Arm32.Action α} {shown : α → β} (same : bareCondition ↔ condition)
    (shows : Shows bareFirst first shown) (showsSecond : Shows bareSecond second shown) :
    Shows (if bareCondition then bareFirst else bareSecond)
      (if condition then first else second) shown := by
  by_cases holds : condition
  · rw [if_pos holds, if_pos (same.mpr holds)]
    exact shows
  · rw [if_neg holds, if_neg (mt same.mp holds)]
    exact showsSecond

theorem shows_liftFault {result : Except Fault α} {bareResult : Except Failure β}
    {shown : α → β} (same : bareResult = (result.map shown).mapError .ofFault) :
    Shows (lift bareResult) (Arm32.Action.liftFault result) shown := by
  rw [same]
  cases result with
  | ok value => exact shows_pure value shown
  | error fault => exact shows_fail (.fault fault) shown

theorem shows_liftMisuse (result : Except Misuse α) :
    Shows (liftMisuse result) (Arm32.Action.liftMisuse result) id := by
  cases result with
  | ok value => exact shows_pure value id
  | error misuse => exact shows_fail (.misuse misuse) id

theorem shows_forM {items : List γ} {bare : γ → Action Unit} {action : γ → Arm32.Action Unit}
    (shows : ∀ item, Shows (bare item) (action item) id) :
    Shows (items.forM bare) (items.forM action) id := by
  induction items with
  | nil => exact shows_pure () id
  | cons item items induction => exact (shows item).bind fun _ => induction

end Bare.Action

/-! ## Registers -/

/-- A value that is cut down to a word by its mask. -/
theorem Bare.emod_eq_toInt (value : Int) : value % 0x100000000 = (Word.ofInt value).toInt :=
  (Word.toNat_ofInt value).symm

namespace Machine

theorem length_registers_toBare (machine : Machine) : machine.toBare.registers.length = 16 := by
  rw [toBare, List.length_map, Vector.length_toList]

theorem registers_toBare (machine : Machine) (register : Register) :
    machine.toBare.registers[register.val]? = some (machine.registers.get register).toInt := by
  have inside : register.val < machine.toBare.registers.length := by
    rw [length_registers_toBare]
    exact register.bound
  rw [List.getElem?_eq_getElem inside]
  simp only [toBare, List.getElem_map, Vector.getElem_toList]
  rfl

theorem setRegister_toBare (machine : Machine) (register : Register) (value : Int) :
    { machine.toBare with
      registers := machine.toBare.registers.set register.val (value % 0x100000000) } =
      (machine.setRegister register (Word.ofInt value)).toBare := by
  simp only [toBare, setRegister, Bare.emod_eq_toInt, Vector.toList_set, List.map_set]

end Machine

namespace Bare.Action

theorem shows_checkRegister (number : Int) :
    Shows (checkRegister number) (Arm32.Action.registerNumbered number) Fin.val := by
  rw [checkRegister, Arm32.Action.registerNumbered, Register.ofNumber?]
  split
  case isTrue inside => exact shows_pure (⟨number.toNat, by omega⟩ : Register) Fin.val
  case isFalse => exact shows_fail _ _

theorem run_entry (machine : Arm32.Machine) (register : Register) :
    (entry register.val).run machine.toBare =
      .ok (machine.registers.get register).toInt machine.toBare := by
  rw [entry, EStateM.run_bind, EStateM.run_get]
  simp only [machine.registers_toBare register]
  rfl

theorem run_setEntry (machine : Arm32.Machine) (register : Register) (value : Int) :
    (setEntry register.val (value % 0x100000000)).run machine.toBare =
      .ok () (machine.setRegister register (Word.ofInt value)).toBare := by
  have inside : register.val < machine.toBare.registers.length := by
    rw [machine.length_registers_toBare]
    exact register.bound
  rw [← machine.setRegister_toBare]
  exact if_pos inside

theorem toInt_operandValue (machine : Arm32.Machine) (register : Register) :
    (machine.operandValue register).toInt =
      if register.val = 15 then ((machine.registers.get register).toInt + 4) % 0x100000000
      else (machine.registers.get register).toInt := by
  rw [Machine.operandValue]
  by_cases isCounter : register = Register.programCounter
  · have index : register.val = 15 := congrArg Fin.val isCounter
    rw [if_pos isCounter, if_pos index, isCounter, Word.toInt, BitVec.toNat_add]
    rfl
  · have index : register.val ≠ 15 := fun same => isCounter (Fin.ext same)
    rw [if_neg isCounter, if_neg index]

theorem shows_getRegister (number : Int) :
    Shows (getRegister number) (Arm32.Action.readRegister number) Word.toInt := by
  refine (shows_checkRegister number).bind fun register machine => ?_
  rw [EStateM.run_bind, run_entry, EStateM.run_bind, EStateM.run_get]
  exact congrArg (EStateM.Result.ok · machine.toBare) (toInt_operandValue machine register).symm

theorem shows_setRegister (number value : Int) :
    Shows (setRegister number value) (Arm32.Action.writeRegister number (Word.ofInt value)) id :=
  (shows_checkRegister number).bind fun register machine => run_setEntry machine register value

theorem shows_setRegister_word (number : Int) (word : Word) :
    Shows (setRegister number word.toInt) (Arm32.Action.writeRegister number word) id := by
  have shows := shows_setRegister number word.toInt
  rwa [Word.ofInt_toInt] at shows

theorem run_programCounter (machine : Arm32.Machine) :
    programCounter.run machine.toBare = .ok machine.programCounter.toInt machine.toBare :=
  run_entry machine Register.programCounter

theorem shows_setProgramCounter (value : Int) :
    Shows (setProgramCounter value) (modify (·.setProgramCounter (Word.ofInt value))) id :=
  fun machine => run_setEntry machine Register.programCounter value

/-! ## Flags, memory and console -/

theorem shows_setFlags (negative? zero? carry? overflow? : Option Bool) :
    Shows (setFlags negative? zero? carry? overflow?)
      (Arm32.Action.setFlags negative? zero? carry? overflow?) id :=
  shows_modify fun _ => rfl

theorem shows_halt : Shows halt (modify Arm32.Machine.halt) id :=
  shows_modify fun _ => rfl

theorem shows_writeText (text : String) :
    Shows (writeText text) (Arm32.Action.writeText text) id :=
  shows_modify fun _ => rfl

theorem shows_readMemory (address : Int) (width : Nat) :
    Shows (readMemory address width) (Arm32.Action.readMemory address width) Int.ofNat :=
  shows_get.bind fun machine => shows_liftFault (machine.memory.read_toBare address width)

theorem shows_loadMemory (block : List UInt8) (address : Int) :
    Shows (loadMemory (numbers block) address) (Arm32.Action.loadMemory block address) id := by
  intro machine
  have loaded : (loadMemory (numbers block) address).run machine.toBare =
      (lift (machine.memory.toBare.load (numbers block) address) >>= fun memory =>
        modify ({ · with memory })).run machine.toBare := rfl
  rw [loaded, machine.memory.load_toBare, Arm32.Memory.load, Arm32.Action.run_loadMemory]
  split <;> rfl

theorem writeMemory_eq_loadMemory (address : Int) (width : Nat) (value : Int) :
    writeMemory address width value =
      loadMemory (numbers (LittleEndian.toBytes width value)) address := by
  simp only [writeMemory, loadMemory, Memory.write_eq_load]

theorem shows_writeMemory (address : Int) (width : Nat) (value : Int) :
    Shows (writeMemory address width value) (Arm32.Action.writeMemory address width value) id := by
  rw [writeMemory_eq_loadMemory]
  exact shows_loadMemory _ address

end Bare.Action

end Arm32
