import Arm32.Proofs.Execution.Failures

namespace Arm32

/-! What instructions touch. An operation names the registers, the bytes and the rest of
the machine that it may change. Its footprint is read off the operation and the machine
before it; execution stays within it, also where it fails half way. -/

/-- What may change of a machine. The overflow flag counts by itself. -/
structure Footprint where
  registers : List Int := []
  flags : Bool := false
  overflow : Bool := false
  bytes : Nat → Prop := fun _ => False
  console : Bool := false

namespace Footprint

/-- Outside of the footprint, everything but the registers stays as it is. The size of
memory always does, and what has halted does not start again. -/
structure Spares (footprint : Footprint) (before after : Machine) : Prop where
  flags : footprint.flags = false → after.flags = before.flags
  overflow : footprint.overflow = false → after.flags.overflow = before.flags.overflow
  size : after.memory.size = before.memory.size
  bytes : ∀ index, ¬ footprint.bytes index →
    after.memory.byteAt index = before.memory.byteAt index
  console : footprint.console = false → after.console? = before.console?
  halted : before.halted = true → after.halted = true

/-- The machine changes within the footprint. -/
structure Covers (footprint : Footprint) (before after : Machine) : Prop
    extends footprint.Spares before after where
  registers : ∀ register : Register, register.number ∉ footprint.registers →
    after.registers.get register = before.registers.get register

/-- The machine moves to the next instruction and changes within the footprint. A footprint
that includes the program counter leaves open where the machine moves. -/
structure CoversStep (footprint : Footprint) (before after : Machine) : Prop
    extends footprint.Spares before after where
  registers : ∀ register : Register, register ≠ Register.programCounter →
    register.number ∉ footprint.registers →
      after.registers.get register = before.registers.get register
  counter : Register.programCounter.number ∉ footprint.registers →
    after.programCounter = before.programCounter + 4

end Footprint

/-- Logical operators leave the overflow flag alone. -/
def DataOperator.setsOverflow : DataOperator → Bool
  | .add | .addWithCarry | .subtract => true
  | .and | .or => false

/-- The registers that a load fills, from the first one on. -/
def LoadSize.loaded (size : LoadSize) (first : Int) : List Int :=
  if size = .doubleWord then [first, first + 1] else [first]

/-- The base register, if the transfer changes it. -/
def Transfer.changedBase (transfer : Transfer) : List Int :=
  if transfer.writeBack ∨ transfer.indexing = .after then [transfer.baseRegister] else []

/-- What an operation may change of the machine. -/
def Machine.footprint (machine : Machine) : Operation → Footprint
  | .combine operator destination _ _ setsFlags =>
      { registers := [destination]
        flags := setsFlags
        overflow := setsFlags && operator.setsOverflow }
  | .compare _ _ => { flags := true, overflow := true }
  | .move _ destination _ setsFlags => { registers := [destination], flags := setsFlags }
  | .moveHalf _ destination _ => { registers := [destination] }
  | .branch _ link =>
      { registers :=
          Register.programCounter.number :: if link then [Register.link.number] else [] }
  | .branchExchange _ => { registers := [Register.programCounter.number] }
  | .load size transfer =>
      { registers := transfer.changedBase ++ size.loaded transfer.valueRegister }
  | .store size transfer =>
      { registers := transfer.changedBase
        bytes := fun index => (machine.transferAddress transfer).toNat ≤ index ∧
          index < (machine.transferAddress transfer).toNat + size.bytes }
  | .supervisorCall _ => { console := machine.registers.get Register.callNumber = 4 }
  | .undefined => {}

namespace Footprint

variable {footprint : Footprint} {machine before between after : Machine}

/-! ## Small changes -/

theorem Covers.refl : footprint.Covers machine machine where
  flags := fun _ => rfl
  overflow := fun _ => rfl
  size := rfl
  bytes := fun _ _ => rfl
  console := fun _ => rfl
  halted := id
  registers := fun _ _ => rfl

theorem Covers.trans (first : footprint.Covers before between)
    (second : footprint.Covers between after) : footprint.Covers before after where
  flags := fun spared => (second.flags spared).trans (first.flags spared)
  overflow := fun spared => (second.overflow spared).trans (first.overflow spared)
  size := second.size.trans first.size
  bytes := fun index outside => (second.bytes index outside).trans (first.bytes index outside)
  console := fun spared => (second.console spared).trans (first.console spared)
  halted := fun stopped => second.halted (first.halted stopped)
  registers := fun register outside =>
    (second.registers register outside).trans (first.registers register outside)

/-- After the program counter has moved on, the operation changes the rest. -/
theorem Covers.step (covers : footprint.Covers machine.advance after) :
    footprint.CoversStep machine after where
  toSpares := ⟨covers.flags, covers.overflow, covers.size, covers.bytes, covers.console,
    covers.halted⟩
  registers := by
    intro register other outside
    rw [covers.registers register outside]
    exact machine.setRegister_other _ _ _ other
  counter := by
    intro outside
    exact (covers.registers _ outside).trans machine.programCounter_advance

theorem covers_setRegister {register : Register} (value : Word)
    (named : register.number ∈ footprint.registers) :
    footprint.Covers machine (machine.setRegister register value) :=
  { (Covers.refl : footprint.Covers machine machine) with
    registers := by
      intro other outside
      apply machine.setRegister_other
      rintro rfl
      exact outside named }

theorem covers_assign {number : Int} (value : Word) (names : IsRegister number)
    (named : number ∈ footprint.registers) :
    footprint.Covers machine (machine.assign number value) := by
  rcases names.eq_number with ⟨register, rfl⟩
  rw [Machine.assign_number]
  exact covers_setRegister value named

theorem covers_withFlags {result : DataResult} (flags : footprint.flags = true)
    (overflow : footprint.overflow = true ∨ result.overflow? = none) :
    footprint.Covers machine (machine.withFlags result) :=
  { (Covers.refl : footprint.Covers machine machine) with
    flags := fun spared => absurd (flags.symm.trans spared) (by decide)
    overflow := by
      intro spared
      rcases overflow with set | kept
      · exact absurd (set.symm.trans spared) (by decide)
      · rw [Machine.withFlags, kept]
        rfl }

theorem covers_withStored {address : Int} {width : Nat} (value : Word)
    (named : ∀ index, address.toNat ≤ index → index < address.toNat + width →
      footprint.bytes index) :
    footprint.Covers machine (machine.withStored address width value) :=
  { (Covers.refl : footprint.Covers machine machine) with
    size := machine.memory.size_setBytes _ _
    bytes := by
      intro index outside
      have apart : ¬ (address.toNat ≤ index ∧ index < address.toNat + width) :=
        fun inside => outside (named index inside.1 inside.2)
      apply machine.memory.byteAt_setBytes_outside
      rw [LittleEndian.length_toBytes]
      omega }

theorem covers_withOutput (text : String) (named : footprint.console = true) :
    footprint.Covers machine (machine.withOutput text) :=
  { (Covers.refl : footprint.Covers machine machine) with
    console := fun spared => absurd (named.symm.trans spared) (by decide) }

theorem covers_halt : footprint.Covers machine machine.halt :=
  { (Covers.refl : footprint.Covers machine machine) with
    halted := fun _ => rfl }

/-! ## Results and transfers -/

theorem covers_withResult {destination : Int} {result : DataResult} {setsFlags : Bool}
    (names : IsRegister destination) (named : destination ∈ footprint.registers)
    (flags : setsFlags = true → footprint.flags = true)
    (overflow : setsFlags = true → footprint.overflow = true ∨ result.overflow? = none) :
    footprint.Covers machine (machine.withResult destination result setsFlags) := by
  have written := @covers_assign footprint machine _ (Word.ofInt result.value) names named
  cases setsFlags with
  | false => exact written
  | true => exact written.trans (covers_withFlags (flags rfl) (overflow rfl))

theorem covers_withBase {transfer : Transfer} (adjusted : Word)
    (names : IsRegister transfer.baseRegister)
    (named : ∀ number ∈ transfer.changedBase, number ∈ footprint.registers) :
    footprint.Covers machine (machine.withBase transfer adjusted) := by
  unfold Machine.withBase
  split
  case isTrue changed =>
    apply covers_assign adjusted names
    apply named
    rw [Transfer.changedBase, if_pos changed]
    exact List.mem_singleton_self _
  case isFalse => exact .refl

end Footprint

/-! ## Operations -/

namespace Action

variable {machine : Machine} {footprint : Footprint}

theorem load_covered {size : LoadSize} {transfer : Transfer}
    (wellFormed : transfer.WellFormed size.isLong)
    (base : ∀ number ∈ transfer.changedBase, number ∈ footprint.registers)
    (loaded : ∀ number ∈ size.loaded transfer.valueRegister, number ∈ footprint.registers) :
    footprint.Covers machine (machineLeft ((load size transfer).run machine)) := by
  by_cases double : size = .doubleWord
  · subst double
    rw [run_load_doubleWord wellFormed]
    dsimp only
    split
    case isTrue => exact .refl
    case isFalse pairs =>
      have nextNames := (Decidable.not_not.mp pairs).nextNames wellFormed.valueNames
      split
      case isTrue => exact .refl
      case isFalse =>
        split
        case isTrue => exact .refl
        case isFalse =>
          refine .trans ?_ (Footprint.covers_assign _ nextNames (loaded _ (.tail _ (.head _))))
          refine .trans ?_ (Footprint.covers_assign _ wellFormed.valueNames (loaded _ (.head _)))
          exact Footprint.covers_withBase _ wellFormed.baseNames base
  · rcases LoadSize.access_of_single double with ⟨entry, found⟩
    rw [run_load found wellFormed]
    split
    case isTrue =>
      have value : transfer.valueRegister ∈ size.loaded transfer.valueRegister := by
        rw [LoadSize.loaded, if_neg double]
        exact .head _
      refine .trans ?_ (Footprint.covers_assign _ wellFormed.valueNames (loaded _ value))
      exact Footprint.covers_withBase _ wellFormed.baseNames base
    case isFalse => exact .refl

/-- The first word of a double word may be stored although the second one is refused. -/
theorem store_covered {size : StoreSize} {transfer : Transfer}
    (wellFormed : transfer.WellFormed size.isLong)
    (base : ∀ number ∈ transfer.changedBase, number ∈ footprint.registers)
    (stored : ∀ index, (machine.accessAddress transfer).toNat ≤ index →
      index < (machine.accessAddress transfer).toNat + size.bytes → footprint.bytes index) :
    footprint.Covers machine (machineLeft ((store size transfer).run machine)) := by
  by_cases double : size = .doubleWord
  · subst double
    have next := (machine.accessAddress transfer).toNat_toInt_add_four
    have bytes : StoreSize.bytes .doubleWord = 8 := rfl
    have low (value : Word) : footprint.Covers machine
        (machine.withStored (machine.accessAddress transfer).toInt 4 value) :=
      Footprint.covers_withStored value fun index above below => stored index above (by omega)
    rw [run_store_doubleWord wellFormed]
    dsimp only
    split
    case isTrue => exact .refl
    case isFalse =>
      split
      case isTrue => exact .refl
      case isFalse =>
        split
        case isTrue => exact low _
        case isFalse =>
          refine .trans ?_ (Footprint.covers_withBase _ wellFormed.baseNames base)
          refine .trans (low _) (Footprint.covers_withStored _ ?_)
          exact fun index above below => stored index (by omega) (by omega)
  · rcases StoreSize.accessWidth_of_single double with ⟨width, found⟩
    rw [run_store found wellFormed]
    dsimp only
    split
    case isTrue =>
      rw [(StoreSize.bytes_of_accessWidth found).1] at stored
      refine .trans ?_ (Footprint.covers_withBase _ wellFormed.baseNames base)
      exact Footprint.covers_withStored _ stored
    case isFalse => exact .refl

theorem branch_covered (offset : Int) {link : Bool}
    (counter : Register.programCounter.number ∈ footprint.registers)
    (linked : link = true → Register.link.number ∈ footprint.registers) :
    footprint.Covers machine (machine.branched offset link) := by
  unfold Machine.branched
  dsimp only
  have returns : footprint.Covers machine
      (if link then machine.setRegister Register.link machine.programCounter else machine) := by
    split
    case isTrue links => exact Footprint.covers_setRegister _ (linked links)
    case isFalse => exact .refl
  split
  case isTrue => exact returns.trans Footprint.covers_halt
  case isFalse => exact returns.trans (Footprint.covers_setRegister _ counter)

theorem systemCall_covered
    (console : machine.operandValue Register.callNumber = 4 → footprint.console = true) :
    footprint.Covers machine (machineLeft (systemCall.run machine)) := by
  rw [run_systemCall, SystemCall.ofNumber?]
  by_cases exits : machine.operandValue Register.callNumber = 1
  · rw [if_pos exits]
    exact Footprint.covers_halt
  · by_cases writes : machine.operandValue Register.callNumber = 4
    · rw [if_neg exits, if_pos writes]
      dsimp only
      rw [run_writeCall]
      split
      case isTrue => exact .refl
      case isFalse =>
        split
        case isTrue => exact .refl
        case isFalse =>
          cases machine.memory.readString (machine.valueOf 1).toInt with
          | ok bytes => exact Footprint.covers_withOutput _ (console writes)
          | error fault => exact .refl
    · rw [if_neg exits, if_neg writes]
      exact .refl

/-- Every operation stays within its footprint. -/
theorem perform_covered {operation : Operation} (wellFormed : operation.WellFormed) :
    (machine.footprint operation).Covers machine.advance
      (machineLeft ((perform operation).run machine.advance)) := by
  cases operation with
  | combine operator destination source second setsFlags =>
      rcases wellFormed with ⟨destinationNames, sourceNames, operandFits⟩
      rw [perform, run_combine operator setsFlags destinationNames sourceNames operandFits]
      apply Footprint.covers_withResult destinationNames (.head _) id
      rintro rfl
      cases operator with
      | add | addWithCarry | subtract => exact .inl rfl
      | and | or => exact .inr rfl
  | compare source second =>
      rw [perform, run_compare wellFormed.1 wellFormed.2]
      exact Footprint.covers_withFlags rfl (.inl rfl)
  | move inverted destination source setsFlags =>
      rw [perform, run_move inverted setsFlags wellFormed.1 wellFormed.2]
      exact Footprint.covers_withResult wellFormed.1 (.head _) id fun _ => .inr rfl
  | moveHalf half destination immediate =>
      rw [perform, run_moveHalf half immediate wellFormed.1]
      exact Footprint.covers_assign _ wellFormed.1 (.head _)
  | branch offset link =>
      rw [perform, run_branch]
      apply branch_covered offset (.head _)
      rintro rfl
      exact .tail _ (.head _)
  | branchExchange register =>
      rw [perform, run_branchExchange wellFormed]
      exact Footprint.covers_setRegister _ (.head _)
  | load size transfer =>
      apply load_covered wellFormed
      · intro number changed
        exact List.mem_append_left _ changed
      · intro number loaded
        exact List.mem_append_right _ loaded
  | store size transfer =>
      apply store_covered wellFormed
      · exact fun _ => id
      · rw [Machine.accessAddress_advance wellFormed.baseNames wellFormed.offsetFits]
        exact fun index above below => ⟨above, below⟩
  | supervisorCall immediate =>
      apply systemCall_covered
      intro writes
      have number := @Machine.valueOf_advance_number machine Register.callNumber (by decide)
      rw [Machine.valueOf_number] at number
      exact decide_eq_true (number.symm.trans writes)
  | undefined => exact wellFormed.elim

/-- An instruction changes only what it names, whether it succeeds or fails. If its
condition does not hold, that is the program counter; otherwise it is the footprint of its
operation, and where the program counter is not part of that, it moves on. -/
theorem execution_within_footprint {value : Int} {instruction : Instruction}
    (decoded : Instruction.decode value = .ok instruction) (machine : Machine) :
    let after := machineLeft ((execute instruction).run machine)
    (¬ instruction.condition.holds machine.flags = true →
        machine.SameButCounter after ∧ after.programCounter = machine.programCounter + 4) ∧
      (instruction.condition.holds machine.flags = true →
        (machine.footprint instruction.operation).CoversStep machine after) := by
  have wellFormed := Instruction.wellFormed_of_decode decoded
  intro after
  constructor
  · intro fails
    have advanced : after = machine.advance := by
      simp only [after, run_execute, if_neg fails]
      rfl
    rw [advanced]
    exact ⟨machine.sameButCounter_advance, machine.programCounter_advance⟩
  · intro holds
    have performed : after =
        machineLeft ((perform instruction.operation).run machine.advance) := by
      simp only [after, run_execute, if_pos holds]
    rw [performed]
    exact (perform_covered wellFormed).step

/-- A double word that is stored half way changes nothing outside of its eight bytes. -/
theorem execution_within_footprint_failing :
    let machine : Machine :=
      { memory := .zeros 8,
        registers := ((Vector.replicate 16 0).setIfInBounds 1 4).setIfInBounds 2 7 }
    let operation : Operation := .store .doubleWord ⟨.before, false, .plus, 2, 1, .immediate 0⟩
    let after := machineLeft ((execute ⟨.always, operation⟩).run machine)
    after.memory.byteAt 4 = 7 ∧ (machine.footprint operation).CoversStep machine after := by
  intro machine operation after
  have decoded : Instruction.decode 0xE1C120F0 = .ok ⟨.always, operation⟩ := rfl
  exact ⟨rfl, (execution_within_footprint decoded machine).2 rfl⟩

end Action

end Arm32
