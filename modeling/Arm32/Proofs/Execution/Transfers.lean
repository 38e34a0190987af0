import Arm32.Proofs.Decoding.WellFormed
import Arm32.Proofs.Execution.Effects
import Arm32.Proofs.Memory.Bytes
import Arm32.Proofs.Shifter.Law

namespace Arm32

/-! The effect of loads and stores. It is written down as a function of the machine
before the instruction, with the arithmetic of packed words; execution, which goes
through the machine step by step, comes to the same. -/

/-! ## What a transfer means -/

/-- The word that a load from an address gives to its register. -/
def LoadSize.wordFrom (size : LoadSize) (memory : Memory) (address : Nat) : Word :=
  match size with
  | .word | .doubleWord => memory.wordAt address
  | .byte => (memory.byteAt address).toBitVec.setWidth 32
  | .unsignedHalfWord => (memory.halfWordAt address).setWidth 32
  | .signedByte => (memory.byteAt address).toBitVec.signExtend 32
  | .signedHalfWord => (memory.halfWordAt address).signExtend 32

namespace Machine

/-- A register as the next instruction will see it. The program counter is seen two
instructions ahead. -/
def sourceValue (machine : Machine) (number : Int) : Word :=
  if number = 15 then machine.programCounter + 8 else machine.registers[number.toNat]?.getD 0

def transferOffset (machine : Machine) : Offset → Word
  | .immediate value => BitVec.ofInt 32 value
  | .register register kind amount => kind.apply (machine.sourceValue register) amount.toNat

/-- The base with the offset added or taken away. -/
def transferSum (machine : Machine) (transfer : Transfer) : Word :=
  match transfer.sign with
  | .plus => machine.sourceValue transfer.baseRegister + machine.transferOffset transfer.offset
  | .minus => machine.sourceValue transfer.baseRegister - machine.transferOffset transfer.offset

def transferAddress (machine : Machine) (transfer : Transfer) : Word :=
  match transfer.indexing with
  | .before => machine.transferSum transfer
  | .after => machine.sourceValue transfer.baseRegister

/-- The registers once the program counter has moved on and the base is written back. -/
def registersMoved (machine : Machine) (transfer : Transfer) : Vector Word 16 :=
  let moved := machine.registers.setIfInBounds 15 (machine.programCounter + 4)
  if transfer.indexing = .after ∨ transfer.writeBack then
    moved.setIfInBounds transfer.baseRegister.toNat (machine.transferSum transfer)
  else moved

/-- The registers after a load. What is loaded comes last. -/
def registersLoaded (machine : Machine) (size : LoadSize) (transfer : Transfer) :
    Vector Word 16 :=
  let address := (machine.transferAddress transfer).toNat
  let first := (machine.registersMoved transfer).setIfInBounds transfer.valueRegister.toNat
    (size.wordFrom machine.memory address)
  if size = .doubleWord then
    first.setIfInBounds (transfer.valueRegister + 1).toNat (machine.memory.wordAt (address + 4))
  else first

/-- The memory after a store. -/
def StoresTo (machine : Machine) (size : StoreSize) (transfer : Transfer) (after : Memory) :
    Prop :=
  let address := (machine.transferAddress transfer).toNat
  let low := machine.sourceValue transfer.valueRegister
  let high := machine.sourceValue (transfer.valueRegister + 1)
  match size with
  | .byte => machine.memory.Stored after address 1 low
  | .halfWord => machine.memory.Stored after address 2 low
  | .word => machine.memory.Stored after address 4 low
  | .doubleWord => machine.memory.Stored after address 8 (high ++ low)

end Machine

/-! ## Loaded words -/

theorem Word.toNat_toInt_add_four (word : Word) : (word.toInt + 4).toNat = word.toNat + 4 := by
  simp only [toInt]
  omega

theorem Word.ofInt_toInt_add_four (word : Word) : ofInt (word.toInt + 4) = word + 4 := by
  rw [ofInt_eq, BitVec.ofInt_add, ← ofInt_eq, ofInt_toInt]
  rfl

theorem Word.ofInt_toInt_sub_four (word : Word) : ofInt (word.toInt - 4) = word - 4 := by
  rw [ofInt_eq, Int.sub_eq_add_neg, BitVec.ofInt_add, ← ofInt_eq, ofInt_toInt,
    BitVec.sub_eq_add_neg]
  exact congrArg (word + ·) (by decide)

theorem Word.ofInt_toNat_setWidth {width : Nat} (value : BitVec width) :
    Word.ofInt value.toNat = value.setWidth 32 := by
  rw [Word.ofInt_natCast]
  apply BitVec.eq_of_toNat_eq
  rw [BitVec.toNat_ofNat, BitVec.toNat_setWidth]

theorem Word.signExtend_eq {width : Nat} (value : BitVec width) :
    Word.signExtend value.toNat width = value.signExtend 32 := by
  rw [Word.signExtend_ofInt, BitVec.ofInt_natCast, BitVec.ofNat_toNat, BitVec.setWidth_eq]

theorem Memory.ofInt_valueAt_four (memory : Memory) (address : Nat) :
    Word.ofInt (memory.valueAt address 4) = memory.wordAt address := by
  rw [← memory.toNat_wordAt, Word.ofInt_toNat_setWidth, BitVec.setWidth_eq]

theorem LoadSize.extend_eq {size : LoadSize} {entry : LoadAccess}
    (found : size.access = .ok entry) (memory : Memory) (address : Nat) :
    entry.extend (memory.valueAt address entry.width) = size.wordFrom memory address := by
  have byte : memory.valueAt address 1 = (memory.byteAt address).toBitVec.toNat := rfl
  cases size with
  | word =>
      cases found
      exact memory.ofInt_valueAt_four address
  | doubleWord => cases found
  | byte =>
      cases found
      dsimp only
      rw [byte, Word.ofInt_toNat_setWidth]
      rfl
  | unsignedHalfWord =>
      cases found
      dsimp only
      rw [← memory.toNat_halfWordAt, Word.ofInt_toNat_setWidth]
      rfl
  | signedByte =>
      cases found
      dsimp only
      rw [byte, Word.signExtend_eq]
      rfl
  | signedHalfWord =>
      cases found
      dsimp only
      rw [← memory.toNat_halfWordAt, Word.signExtend_eq]
      rfl

/-! ## Registers and addresses -/

namespace Machine

variable {machine : Machine} {transfer : Transfer} {number : Int}

theorem valueOf_advance (names : IsRegister number) :
    machine.advance.valueOf number = machine.sourceValue number := by
  rcases names.eq_number with ⟨register, rfl⟩
  rw [valueOf_number, operandValue, sourceValue]
  by_cases counter : register = Register.programCounter
  · -- The machine has moved on by one instruction, so one more is to come.
    subst counter
    have moved : machine.advance.programCounter = machine.programCounter + 4 :=
      machine.setProgramCounter_same _
    have counter : Register.programCounter.number = 15 := rfl
    rw [if_pos rfl, if_pos counter, moved, BitVec.add_assoc]
    rfl
  · have other : register.number ≠ 15 := by
      intro equal
      apply counter
      apply Fin.ext
      have value : (register.val : Int) = 15 := equal
      change register.val = 15
      omega
    have same : machine.advance.registers.get register = machine.registers.get register :=
      machine.setRegister_other _ _ _ counter
    have found : machine.registers[register.number.toNat]? =
        some (machine.registers.get register) :=
      Vector.getElem?_eq_getElem register.bound
    rw [if_neg counter, if_neg other, same, found, Option.getD_some]

/-- Only the program counter is different once the machine has moved on. -/
theorem valueOf_advance_number {register : Register} (other : register ≠ Register.programCounter) :
    machine.advance.valueOf register.number = machine.registers.get register := by
  rw [valueOf_number, operandValue, if_neg other]
  exact machine.setRegister_other _ _ _ other

theorem setRegister_eq (machine : Machine) (register : Register) (value : Word) :
    machine.setRegister register value =
      { machine with registers := machine.registers.setIfInBounds register.val value } := by
  have registers : machine.registers.set register.val value register.bound =
      machine.registers.setIfInBounds register.val value := by
    apply Vector.ext
    intro index inside
    rw [Vector.getElem_set, Vector.getElem_setIfInBounds]
  rw [← registers]
  rfl

theorem advance_eq (machine : Machine) :
    machine.advance =
      { machine with
        registers := machine.registers.setIfInBounds 15 (machine.programCounter + 4) } :=
  machine.setRegister_eq Register.programCounter _

theorem assign_eq (machine : Machine) (names : IsRegister number) (value : Word) :
    machine.assign number value =
      { machine with registers := machine.registers.setIfInBounds number.toNat value } := by
  rcases names.eq_number with ⟨register, rfl⟩
  rw [assign_number]
  exact machine.setRegister_eq register value

theorem ofInt_offsetValue {offset : Offset} (fits : offset.FitsLong) :
    Word.ofInt (machine.advance.offsetValue offset) = machine.transferOffset offset := by
  cases offset with
  | immediate value => exact Word.ofInt_eq value
  | register register kind amount =>
      rcases fits with ⟨names, amountFits⟩
      rw [offsetValue, shifted, Shifter.ofInt_outcome_encodedAmount kind _ _ amountFits,
        valueOf_advance names]
      rfl

theorem adjustedBase_advance (baseNames : IsRegister transfer.baseRegister)
    (fits : transfer.offset.FitsLong) :
    machine.advance.adjustedBase transfer = machine.transferSum transfer := by
  have base : Word.ofInt (machine.sourceValue transfer.baseRegister).toInt =
      machine.sourceValue transfer.baseRegister := Word.ofInt_toInt _
  have offset := @ofInt_offsetValue machine transfer.offset fits
  rw [Word.ofInt_eq] at base offset
  rw [adjustedBase, transferSum, valueOf_advance baseNames]
  cases transfer.sign with
  | plus =>
      dsimp only
      rw [Word.ofInt_eq, BitVec.ofInt_add, base, offset]
  | minus =>
      dsimp only
      rw [Word.ofInt_eq, Int.sub_eq_add_neg, BitVec.ofInt_add, BitVec.ofInt_neg, base, offset,
        BitVec.sub_eq_add_neg]

theorem accessAddress_advance (baseNames : IsRegister transfer.baseRegister)
    (fits : transfer.offset.FitsLong) :
    machine.advance.accessAddress transfer = machine.transferAddress transfer := by
  unfold accessAddress transferAddress
  cases transfer.indexing with
  | before => exact adjustedBase_advance baseNames fits
  | after => exact valueOf_advance baseNames

theorem withBase_advance (baseNames : IsRegister transfer.baseRegister) :
    machine.advance.withBase transfer (machine.transferSum transfer) =
      { machine with registers := machine.registersMoved transfer } := by
  rw [withBase, registersMoved, machine.advance_eq, assign_eq _ baseNames]
  by_cases written : transfer.indexing = .after ∨ transfer.writeBack
  · rw [if_pos written.symm]
    simp only [written, if_true]
  · rw [if_neg fun other => written other.symm]
    simp only [written, if_false]

/-- Writing the base back neither looks at memory nor changes it. -/
theorem withBase_memory (machine : Machine) (memory : Memory) (transfer : Transfer)
    (adjusted : Word) :
    { machine with memory }.withBase transfer adjusted =
      { machine.withBase transfer adjusted with memory } := by
  unfold withBase assign
  split
  · split <;> rfl
  · rfl

theorem withBase_stored (memory : Memory) (baseNames : IsRegister transfer.baseRegister) :
    { machine.advance with memory }.withBase transfer (machine.transferSum transfer) =
      { machine with memory, registers := machine.registersMoved transfer } := by
  rw [withBase_memory, withBase_advance baseNames]

end Machine

/-! ## Effects -/

namespace Action

variable {machine after : Machine} {transfer : Transfer}

theorem load_effect {size : LoadSize} (wellFormed : transfer.WellFormed size.isLong)
    (succeeded : (load size transfer).run machine.advance = .ok () after) :
    after = { machine with registers := machine.registersLoaded size transfer } := by
  have baseNames := wellFormed.baseNames
  have address := @Machine.accessAddress_advance machine transfer baseNames wellFormed.offsetFits
  have adjusted := @Machine.adjustedBase_advance machine transfer baseNames wellFormed.offsetFits
  have next := (machine.transferAddress transfer).toNat_toInt_add_four
  by_cases double : size = .doubleWord
  · subst double
    rw [run_load_doubleWord wellFormed, address, adjusted, Machine.withBase_advance baseNames]
      at succeeded
    dsimp only at succeeded
    split at succeeded
    case isTrue => cases succeeded
    case isFalse pairs =>
      have nextNames := (Decidable.not_not.mp pairs).nextNames wellFormed.valueNames
      split at succeeded
      case isTrue => cases succeeded
      case isFalse =>
        split at succeeded
        case isTrue => cases succeeded
        case isFalse =>
          cases succeeded
          rw [Machine.assign_eq _ wellFormed.valueNames, Machine.assign_eq _ nextNames, next,
            Memory.ofInt_valueAt_four, Memory.ofInt_valueAt_four]
          rfl
  · rcases LoadSize.access_of_single double with ⟨entry, found⟩
    rw [run_load found wellFormed, address, adjusted, Machine.withBase_advance baseNames]
      at succeeded
    split at succeeded
    case isTrue =>
      cases succeeded
      rw [Machine.assign_eq _ wellFormed.valueNames, LoadSize.extend_eq found]
      simp only [Machine.registersLoaded, double, if_false]
      rfl
    case isFalse => cases succeeded

theorem store_effect {size : StoreSize} (wellFormed : transfer.WellFormed size.isLong)
    (succeeded : (store size transfer).run machine.advance = .ok () after) :
    ∃ memory, machine.StoresTo size transfer memory ∧
      after = { machine with memory, registers := machine.registersMoved transfer } := by
  have baseNames := wellFormed.baseNames
  have address := @Machine.accessAddress_advance machine transfer baseNames wellFormed.offsetFits
  have adjusted := @Machine.adjustedBase_advance machine transfer baseNames wellFormed.offsetFits
  have low := @Machine.valueOf_advance machine _ wellFormed.valueNames
  have next := (machine.transferAddress transfer).toNat_toInt_add_four
  by_cases double : size = .doubleWord
  · subst double
    rw [run_store_doubleWord wellFormed, address, adjusted, low] at succeeded
    dsimp only at succeeded
    split at succeeded
    case isTrue => cases succeeded
    case isFalse pairs =>
      have nextNames := (Decidable.not_not.mp pairs).nextNames wellFormed.valueNames
      rw [Machine.valueOf_advance nextNames] at succeeded
      split at succeeded
      case isTrue => cases succeeded
      case isFalse first =>
        split at succeeded
        case isTrue => cases succeeded
        case isFalse second =>
          cases succeeded
          refine ⟨_, ?_, Machine.withBase_stored _ baseNames⟩
          have lowStored := machine.memory.stored_setBytes
            (machine.sourceValue transfer.valueRegister) (Decidable.not_not.mp first)
          have highStored := Memory.stored_setBytes _
            (machine.sourceValue (transfer.valueRegister + 1))
            ((lowStored.contains_iff _ 4).mpr (Decidable.not_not.mp second))
          have advanced : machine.advance.memory = machine.memory := rfl
          simp only [Machine.withStored, advanced]
          exact lowStored.append highStored next
  · rcases StoreSize.accessWidth_of_single double with ⟨width, found⟩
    rw [run_store found wellFormed, address, adjusted, low] at succeeded
    dsimp only at succeeded
    split at succeeded
    case isTrue inside =>
      cases succeeded
      have stored := machine.advance.memory.stored_setBytes
        (machine.sourceValue transfer.valueRegister) inside
      refine ⟨_, ?_, Machine.withBase_stored _ baseNames⟩
      cases size with
      | doubleWord => exact absurd rfl double
      | word | byte | halfWord =>
          cases found
          exact stored
    case isFalse => cases succeeded

/-- A load or store that succeeds has its documented effect: the program counter moves
on, then the base is written back, then what is loaded arrives. A load leaves memory
as it is, and a store writes its bytes and no others. Nothing else changes. -/
theorem transfer_effect {value : Int} {condition : Condition} {operation : Operation}
    (decoded : Instruction.decode value = .ok ⟨condition, operation⟩)
    (holds : condition.holds machine.flags = true)
    (succeeded : (execute ⟨condition, operation⟩).run machine = .ok () after) :
    (∀ size transfer, operation = .load size transfer →
        after = { machine with registers := machine.registersLoaded size transfer }) ∧
      ∀ size transfer, operation = .store size transfer →
        ∃ memory, machine.StoresTo size transfer memory ∧
          after = { machine with memory, registers := machine.registersMoved transfer } := by
  have wellFormed : operation.WellFormed := Instruction.wellFormed_of_decode decoded
  rw [run_execute, if_pos holds] at succeeded
  constructor
  · rintro size transfer rfl
    exact load_effect wellFormed succeeded
  · rintro size transfer rfl
    exact store_effect wellFormed succeeded

/-- A double word whose second register is the base: the base is written back and then
overwritten by what was loaded. -/
theorem transfer_effect_ownBase :
    let machine : Machine :=
      { memory := (Memory.zeros 16).setBytes 4 [0x11, 0, 0, 0, 0x22],
        registers := (Vector.replicate 16 0).setIfInBounds 1 4 }
    let transfer : Transfer := ⟨.after, true, .plus, 0, 1, .immediate 8⟩
    let after : Machine :=
      { machine with
        registers :=
          ((machine.registers.setIfInBounds 15 4).setIfInBounds 0 0x11).setIfInBounds 1 0x22 }
    (execute ⟨.always, .load .doubleWord transfer⟩).run machine = .ok () after ∧
      after = { machine with registers := machine.registersLoaded .doubleWord transfer } := by
  have decoded : Instruction.decode 0xE0C100D8 =
      .ok ⟨.always, .load .doubleWord ⟨.after, true, .plus, 0, 1, .immediate 8⟩⟩ := rfl
  exact ⟨rfl, (transfer_effect decoded rfl rfl).1 _ _ rfl⟩

end Action

end Arm32
