import Arm32.Proofs.Decoding.Templates
import Arm32.Proofs.Execution.Footprints

namespace Arm32

/-! Stacks in memory. A store that moves its base down first and a load that moves it up
afterwards put words on a stack and take them off again. Between a push and its pop
there may be others, which stay below. -/

/-- The word of a store whose base moves down by one word first. -/
def pushWord (base value : Register) : Nat :=
  0xE5200004 ||| base.val <<< 16 ||| value.val <<< 12

/-- The word of a load whose base moves up by one word afterwards. -/
def popWord (base value : Register) : Nat :=
  0xE4900004 ||| base.val <<< 16 ||| value.val <<< 12

def pushTransfer (base value : Register) : Transfer :=
  ⟨.before, true, .minus, value.number, base.number, .immediate 4⟩

def popTransfer (base value : Register) : Transfer :=
  ⟨.after, true, .plus, value.number, base.number, .immediate 4⟩

namespace Action

/-- Puts a word on the stack, by way of a register. -/
def push (base value : Register) (word : Word) : Action Unit := do
  writeRegister value.number word
  executeWord (pushWord base value)

/-- Takes a word off the stack, and leaves it in a register. -/
def pop (base value : Register) : Action Word := do
  executeWord (popWord base value)
  readRegister value.number

/-- Takes words off the stack, one after another. -/
def popAll (base value : Register) : Nat → Action (List Word)
  | 0 => return []
  | count + 1 => do
      let earlier ← popAll base value count
      let last ← pop base value
      return earlier ++ [last]

end Action

namespace Machine

/-- The machine with a register stored below the base. -/
def lowered (machine : Machine) (base value : Register) : Machine :=
  let top := machine.registers.get base - 4
  (machine.advance.withStored top.toInt 4 (machine.registers.get value)).setRegister base top

/-- The machine with the word at the base in a register. -/
def raised (machine : Machine) (base value : Register) : Machine :=
  let top := machine.registers.get base
  (machine.advance.setRegister base (top + 4)).setRegister value (machine.memory.wordAt top.toNat)

end Machine

/-- What a stack may change: its two registers, the program counter and its own bytes. -/
def stackFootprint (base value : Register) (low high : Nat) : Footprint where
  registers := [base.number, value.number, Register.programCounter.number]
  bytes := fun index => low ≤ index ∧ index < high

/-! ## Decoding -/

/-- Both words have the offset at their lower end. -/
theorem stackTemplate_eq (top : Nat) (base value : Register) :
    (top <<< 20 ||| 4) ||| base.val <<< 16 ||| value.val <<< 12 =
      top <<< 20 + (base.val <<< 16 + (value.val <<< 12 + 4)) := by
  have room : 4 < 1 <<< 12 := by decide
  rw [← Instruction.or_registers top base value room, Nat.or_assoc _ 4, Nat.or_comm 4,
    ← Nat.or_assoc, Nat.or_assoc _ 4, Nat.or_comm 4, ← Nat.or_assoc]

theorem wellFormed_pushTransfer (base value : Register) :
    (pushTransfer base value).WellFormed true :=
  have fits : Fits 12 4 := by decide
  ⟨isRegister_number value, isRegister_number base, fun _ => rfl, fits⟩

theorem wellFormed_popTransfer (base value : Register) :
    (popTransfer base value).WellFormed true :=
  have fits : Fits 12 4 := by decide
  ⟨isRegister_number value, isRegister_number base, fun _ => rfl, fits⟩

theorem decode_pushWord (base value : Register) :
    Instruction.decode (pushWord base value) =
      .ok ⟨.always, .store .word (pushTransfer base value)⟩ := by
  have wellFormed :
      Instruction.WellFormed ⟨.always, .store .word (pushTransfer base value)⟩ :=
    wellFormed_pushTransfer base value
  have sum : pushWord base value =
      0xE52 <<< 20 + (base.val <<< 16 + (value.val <<< 12 + 4)) :=
    stackTemplate_eq 0xE52 base value
  apply Instruction.decode_of_encode wellFormed
  rw [Instruction.toNat_encode wellFormed, sum]
  simp only [Condition.code, Instruction.operationBits, Instruction.longTransferBits,
    Instruction.transferBits, Instruction.longOffsetBits, Instruction.signFlag, pushTransfer,
    Register.number, Instruction.placed, Instruction.flag, decide_true, Bool.and_self,
    Bool.toNat_true, Bool.toNat_false]
  omega

theorem decode_popWord (base value : Register) :
    Instruction.decode (popWord base value) =
      .ok ⟨.always, .load .word (popTransfer base value)⟩ := by
  have wellFormed :
      Instruction.WellFormed ⟨.always, .load .word (popTransfer base value)⟩ :=
    wellFormed_popTransfer base value
  have sum : popWord base value =
      0xE49 <<< 20 + (base.val <<< 16 + (value.val <<< 12 + 4)) :=
    stackTemplate_eq 0xE49 base value
  apply Instruction.decode_of_encode wellFormed
  rw [Instruction.toNat_encode wellFormed, sum]
  simp only [Condition.code, Instruction.operationBits, Instruction.longTransferBits,
    Instruction.transferBits, Instruction.longOffsetBits, Instruction.signFlag, popTransfer,
    Register.number, Instruction.placed, Instruction.flag, reduceCtorEq, decide_false,
    Bool.false_and, Bool.toNat_true, Bool.toNat_false]
  omega

/-! ## One word -/

theorem Word.toNat_sub_four {word : Word} (room : 4 ≤ word.toNat) :
    (word - 4).toNat = word.toNat - 4 := by
  have bound := word.isLt
  rw [← Word.ofInt_toInt_sub_four]
  have reduced := Word.toNat_ofInt (word.toInt - 4)
  simp only [Word.toInt] at reduced ⊢
  omega

variable {base value : Register}

namespace Machine

variable {machine : Machine}

theorem adjustedBase_pushTransfer (general : base.val < 15) :
    machine.advance.adjustedBase (pushTransfer base value) = machine.registers.get base - 4 := by
  have read := @valueOf_advance_number machine base (Register.ne_programCounter general)
  rw [← Word.ofInt_toInt_sub_four, ← read]
  rfl

theorem adjustedBase_popTransfer (general : base.val < 15) :
    machine.advance.adjustedBase (popTransfer base value) = machine.registers.get base + 4 := by
  have read := @valueOf_advance_number machine base (Register.ne_programCounter general)
  rw [← Word.ofInt_toInt_add_four, ← read]
  rfl

end Machine

namespace Action

theorem run_pushWord (machine : Machine) (baseGeneral : base.val < 15)
    (valueGeneral : value.val < 15)
    (room : machine.memory.Contains (machine.registers.get base - 4).toInt 4) :
    (executeWord (pushWord base value)).run machine = .ok () (machine.lowered base value) := by
  have adjusted := @Machine.adjustedBase_pushTransfer base value machine baseGeneral
  have access : machine.advance.accessAddress (pushTransfer base value) =
      machine.registers.get base - 4 := adjusted
  have read : machine.advance.valueOf (pushTransfer base value).valueRegister =
      machine.registers.get value :=
    Machine.valueOf_advance_number (Register.ne_programCounter valueGeneral)
  have found : StoreSize.word.accessWidth = .ok 4 := rfl
  have inside : machine.advance.memory.Contains (machine.registers.get base - 4).toInt 4 := room
  rw [run_executeWord_always (decode_pushWord base value), perform,
    run_store found (wellFormed_pushTransfer base value), access, adjusted, read]
  dsimp only
  rw [if_pos inside, Machine.withBase, if_pos (.inl rfl), pushTransfer, Machine.assign_number]
  rfl

theorem run_popWord (machine : Machine) (baseGeneral : base.val < 15)
    (room : machine.memory.Contains (machine.registers.get base).toInt 4) :
    (executeWord (popWord base value)).run machine = .ok () (machine.raised base value) := by
  have adjusted := @Machine.adjustedBase_popTransfer base value machine baseGeneral
  have access : machine.advance.accessAddress (popTransfer base value) =
      machine.registers.get base :=
    Machine.valueOf_advance_number (Register.ne_programCounter baseGeneral)
  have found : LoadSize.word.access = .ok ⟨4, fun value => Word.ofInt value⟩ := rfl
  have inside : machine.advance.memory.Contains (machine.registers.get base).toInt 4 := room
  rw [run_executeWord_always (decode_popWord base value), perform,
    run_load found (wellFormed_popTransfer base value), access, adjusted, if_pos inside,
    LoadSize.extend_eq found, Machine.withBase, if_pos (.inr rfl), popTransfer,
    Machine.assign_number, Machine.assign_number]
  rfl

end Action

namespace Machine

variable (machine : Machine)

theorem base_lowered :
    (machine.lowered base value).registers.get base = machine.registers.get base - 4 :=
  setRegister_same _ base _

theorem stored_lowered
    (room : machine.memory.Contains (machine.registers.get base - 4).toInt 4) :
    machine.memory.Stored (machine.lowered base value).memory
      (machine.registers.get base - 4).toNat 4 (machine.registers.get value) := by
  have start : (machine.registers.get base - 4).toInt.toNat =
      (machine.registers.get base - 4).toNat := Int.toNat_natCast _
  have stored := machine.memory.stored_setBytes (machine.registers.get value) room
  rw [← start]
  simp only [lowered, setRegister, withStored, advance_memory]
  exact stored

theorem base_raised (different : base ≠ value) :
    (machine.raised base value).registers.get base = machine.registers.get base + 4 :=
  (setRegister_other _ value base _ different).trans (setRegister_same _ base _)

end Machine

/-! ## What the stack touches -/

namespace Footprint

variable {machine after : Machine} {low high : Nat}

theorem covers_advance_stack :
    (stackFootprint base value low high).Covers machine machine.advance :=
  covers_setRegister _ (.tail _ (.tail _ (.head _)))

theorem covers_value (word : Word) :
    (stackFootprint base value low high).Covers machine (machine.setRegister value word) :=
  covers_setRegister word (.tail _ (.head _))

theorem covers_lowered (above : low ≤ (machine.registers.get base - 4).toNat)
    (below : (machine.registers.get base - 4).toNat + 4 ≤ high) :
    (stackFootprint base value low high).Covers machine (machine.lowered base value) := by
  refine covers_advance_stack.trans (.trans ?_ (covers_setRegister _ (.head _)))
  apply covers_withStored
  intro index start stop
  exact ⟨Nat.le_trans above start, Nat.lt_of_lt_of_le stop below⟩

theorem covers_raised :
    (stackFootprint base value low high).Covers machine (machine.raised base value) :=
  covers_advance_stack.trans ((covers_setRegister _ (.head _)).trans (covers_value _))

/-- A larger stack may change more. -/
theorem Covers.widen {lower higher : Nat}
    (covers : (stackFootprint base value low high).Covers machine after) (below : lower ≤ low)
    (above : high ≤ higher) : (stackFootprint base value lower higher).Covers machine after :=
  { covers with
    bytes := fun index outside =>
      covers.bytes index fun inside =>
        outside ⟨Nat.le_trans below inside.1, Nat.lt_of_lt_of_le inside.2 above⟩ }

end Footprint

namespace Action

/-- A push, told by what it leaves behind. -/
theorem run_push (machine : Machine) (word : Word) (baseGeneral : base.val < 15)
    (valueGeneral : value.val < 15) (different : base ≠ value)
    (room : 4 ≤ (machine.registers.get base).toNat)
    (inside : (machine.registers.get base).toNat ≤ machine.memory.size) :
    ∃ after, (push base value word).run machine = .ok () after ∧
      after.registers.get base = machine.registers.get base - 4 ∧
      after.memory.wordAt (machine.registers.get base - 4).toNat = word ∧
      (stackFootprint base value ((machine.registers.get base).toNat - 4)
        (machine.registers.get base).toNat).Covers machine after := by
  have top := Word.toNat_sub_four room
  have kept : (machine.setRegister value word).registers.get base = machine.registers.get base :=
    machine.setRegister_other _ _ _ different
  have fits : machine.memory.Contains (machine.registers.get base - 4).toInt 4 := by
    rw [Memory.contains_toInt_iff, top]
    omega
  rw [← kept] at fits
  have stored := @Machine.stored_lowered base value (machine.setRegister value word) fits
  refine ⟨(machine.setRegister value word).lowered base value, ?_, ?_, ?_, ?_⟩
  · rw [push, run_afterWrite]
    exact run_pushWord _ baseGeneral valueGeneral fits
  · rw [Machine.base_lowered, kept]
  · rw [kept, Machine.setRegister_same] at stored
    exact stored.wordAt_eq
  · apply (Footprint.covers_value word).trans
    apply Footprint.covers_lowered
    · exact Nat.le_of_eq (by rw [kept, top])
    · rw [kept, top]
      omega

/-- A pop, told by the word that it gives and by what it leaves behind. -/
theorem run_pop (machine : Machine) (baseGeneral : base.val < 15) (valueGeneral : value.val < 15)
    (different : base ≠ value)
    (inside : (machine.registers.get base).toNat + 4 ≤ machine.memory.size) :
    ∃ after, (pop base value).run machine =
        .ok (machine.memory.wordAt (machine.registers.get base).toNat) after ∧
      after.registers.get base = machine.registers.get base + 4 ∧
      ∀ low high, (stackFootprint base value low high).Covers machine after := by
  have fits := Memory.contains_toInt_iff.mpr inside
  have loaded : (machine.raised base value).operandValue value =
      machine.memory.wordAt (machine.registers.get base).toNat := by
    rw [Machine.operandValue, if_neg (Register.ne_programCounter valueGeneral)]
    exact Machine.setRegister_same _ value _
  refine ⟨machine.raised base value, ?_, machine.base_raised different, fun low high =>
    Footprint.covers_raised⟩
  rw [pop, ← loaded]
  exact run_beforeRead (run_popWord machine baseGeneral fits) value

/-! ## Many words -/

/-- Words that are pushed come off the stack in the opposite order, and nothing shows
afterwards outside of the stack's own bytes. -/
theorem stack_restores (machine : Machine) (baseGeneral : base.val < 15)
    (valueGeneral : value.val < 15) (different : base ≠ value) {words : List Word}
    (room : 4 * words.length ≤ (machine.registers.get base).toNat)
    (inside : (machine.registers.get base).toNat ≤ machine.memory.size) :
    ∃ between after,
      (words.forM (push base value)).run machine = .ok () between ∧
      (popAll base value words.length).run between = .ok words.reverse after ∧
      after.registers.get base = machine.registers.get base ∧
      (stackFootprint base value
        ((machine.registers.get base).toNat - 4 * words.length)
        (machine.registers.get base).toNat).Covers machine after := by
  induction words generalizing machine with
  | nil => exact ⟨machine, machine, rfl, rfl, rfl, .refl⟩
  | cons word rest induction =>
      rw [List.length_cons] at room
      have top := @Word.toNat_sub_four (machine.registers.get base) (by omega)
      rcases run_push machine word baseGeneral valueGeneral different (by omega) inside with
        ⟨pushed, push, pushedBase, pushedWord, pushedCovers⟩
      rcases induction pushed (by rw [pushedBase, top]; omega)
          (by rw [pushedBase, top, pushedCovers.size]; omega) with
        ⟨between, last, pushes, pops, lastBase, covers⟩
      rw [pushedBase] at lastBase
      rw [pushedBase, top] at covers
      rcases run_pop last baseGeneral valueGeneral different
          (by rw [lastBase, top, covers.size, pushedCovers.size]; omega) with
        ⟨after, pop, afterBase, afterCovers⟩
      -- The pushes and pops in between stay below the first word.
      have lastWord : last.memory.wordAt (last.registers.get base).toNat = word := by
        rw [← pushedWord, lastBase]
        apply Memory.wordAt_congr
        intro index above _
        apply covers.bytes
        rintro ⟨_, below⟩
        omega
      refine ⟨between, after, ?_, ?_, ?_, ?_⟩
      · rw [List.forM, run_then push, pushes]
      · rw [List.length_cons, popAll, run_then pops, run_then pop, lastWord, List.reverse_cons]
        rfl
      · rw [afterBase, lastBase, BitVec.sub_add_cancel]
      · rw [List.length_cons]
        apply (pushedCovers.widen (by omega) (Nat.le_refl _)).trans
        exact (covers.widen (by omega) (by omega)).trans (afterCovers _ _)

/-- A stack that fills memory from an end that is not aligned. -/
theorem stack_restores_unaligned :
    let machine : Machine :=
      { memory := .zeros 9, registers := (Vector.replicate 16 0).setIfInBounds 13 9 }
    ∃ between after,
      ([0x11223344, 0xFFFFFFFF].forM (push 13 0)).run machine = .ok () between ∧
      (popAll 13 0 2).run between = .ok [0xFFFFFFFF, 0x11223344] after ∧
      after.registers.get 13 = 9 ∧ after.memory.byteAt 0 = 0 := by
  intro machine
  rcases @stack_restores 13 0 machine (by decide) (by decide) (by decide)
      [0x11223344, 0xFFFFFFFF] (by decide) (by decide) with
    ⟨between, after, pushes, pops, base, covers⟩
  refine ⟨between, after, pushes, pops, base, ?_⟩
  exact covers.bytes 0 fun stacked => absurd stacked.1 (by decide)

end Action

end Arm32
