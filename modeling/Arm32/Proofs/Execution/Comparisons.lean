import Arm32.Proofs.Execution.Calculations

namespace Arm32

/-! Conditions after a comparison. The flags of a difference say how the two words are
ordered, as unsigned numbers by the carry and as signed ones by the sign together with
the overflow. -/

/-- What a condition says of two words that have been compared. -/
def Condition.Says (condition : Condition) (first second : Word) : Prop :=
  match condition with
  | .equal => first = second
  | .notEqual => first ≠ second
  | .carrySet => second.toNat ≤ first.toNat
  | .carryClear => first.toNat < second.toNat
  | .negative => BitVec.toInt (first - second) < 0
  | .positive => 0 ≤ BitVec.toInt (first - second)
  | .overflow => BitVec.toInt (first - second) ≠ BitVec.toInt first - BitVec.toInt second
  | .noOverflow => BitVec.toInt (first - second) = BitVec.toInt first - BitVec.toInt second
  | .unsignedHigher => second.toNat < first.toNat
  | .unsignedLowerOrSame => first.toNat ≤ second.toNat
  | .greaterOrEqual => BitVec.toInt second ≤ BitVec.toInt first
  | .lessThan => BitVec.toInt first < BitVec.toInt second
  | .greaterThan => BitVec.toInt second < BitVec.toInt first
  | .lessOrEqual => BitVec.toInt first ≤ BitVec.toInt second
  | .always => True

namespace Calculation

variable (first second : Word) (carryIn : Bool)

theorem result_difference : difference.result first second carryIn = first - second := by
  have reduced := difference.toInt_result first second carryIn
  have firstBound := first.isLt
  have secondBound := second.isLt
  apply BitVec.eq_of_toNat_eq
  rw [BitVec.toNat_sub]
  simp only [exact, Word.toInt] at reduced
  omega

/-- The signed difference, if a word has room for it, and otherwise what is off by the
number of words. -/
theorem signed_difference_cases :
    (-0x80000000 ≤ BitVec.toInt first - BitVec.toInt second ∧
        BitVec.toInt first - BitVec.toInt second < 0x80000000 ∧
        BitVec.toInt (first - second) = BitVec.toInt first - BitVec.toInt second) ∨
      (BitVec.toInt first - BitVec.toInt second < -0x80000000 ∧
        0 ≤ BitVec.toInt (first - second)) ∨
      (0x80000000 ≤ BitVec.toInt first - BitVec.toInt second ∧
        BitVec.toInt (first - second) < 0) := by
  have firstBound := first.isLt
  have secondBound := second.isLt
  have firstSign := signed_cases first
  have secondSign := signed_cases second
  have differenceSign := signed_cases (first - second)
  have reduced := BitVec.toNat_sub first second
  simp only [Word.toInt] at firstSign secondSign differenceSign
  omega

theorem zero_difference :
    (difference.flags first second carryIn).zero = true ↔ first = second := by
  have fromZero : 0 + second = second := BitVec.zero_add second
  rw [flags, decide_eq_true_iff, result_difference, BitVec.sub_eq_iff_eq_add, fromZero]

theorem carry_difference :
    (difference.flags first second carryIn).carry = true ↔ second.toNat ≤ first.toNat := by
  rw [flags, carries, decide_eq_true_iff]
  exact Int.ofNat_le

theorem negative_difference :
    (difference.flags first second carryIn).negative = true ↔
      BitVec.toInt (first - second) < 0 := by
  have sign := signed_cases (first - second)
  have bound := (first - second).isLt
  rw [flags, decide_eq_true_iff, result_difference]
  simp only [Word.toInt] at sign ⊢
  omega

theorem overflow_difference :
    (difference.flags first second carryIn).overflow = true ↔
      BitVec.toInt (first - second) ≠ BitVec.toInt first - BitVec.toInt second := by
  have cases := signed_difference_cases first second
  rw [flags, overflows_iff, exact]
  omega

/-- Without an overflow the sign is that of the difference, and with one it is the other. -/
theorem signed_order_difference :
    ((difference.flags first second carryIn).negative ==
        (difference.flags first second carryIn).overflow) = true ↔
      BitVec.toInt second ≤ BitVec.toInt first := by
  have cases := signed_difference_cases first second
  rw [beq_iff_eq, Bool.eq_iff_iff, negative_difference, overflow_difference]
  omega

theorem not_flag_iff {flag : Bool} {statement : Prop} (means : flag = true ↔ statement) :
    (!flag) = true ↔ ¬ statement := by
  rw [Bool.not_eq_true', ← Bool.not_eq_true, means]

/-- Every condition means what it is named for. -/
theorem holds_difference (condition : Condition) :
    condition.holds (difference.flags first second carryIn) = true ↔
      condition.Says first second := by
  have zero := zero_difference first second carryIn
  have carry := carry_difference first second carryIn
  have negative := negative_difference first second carryIn
  have overflow := overflow_difference first second carryIn
  have ordered := signed_order_difference first second carryIn
  -- Equality in the two orders, for the conditions that join it to a comparison.
  have equal : first = second ↔ first.toNat = second.toNat := BitVec.toNat_eq
  have signedEqual : first = second ↔ BitVec.toInt first = BitVec.toInt second :=
    BitVec.toInt_inj.symm
  cases condition with
  | equal => exact zero
  | notEqual => exact not_flag_iff zero
  | carrySet => exact carry
  | carryClear => exact (not_flag_iff carry).trans Nat.not_le
  | negative => exact negative
  | positive => exact (not_flag_iff negative).trans Int.not_lt
  | overflow => exact overflow
  | noOverflow => exact (not_flag_iff overflow).trans Decidable.not_not
  | unsignedHigher =>
      rw [Condition.holds, Bool.and_eq_true, carry, not_flag_iff zero, equal, Condition.Says]
      omega
  | unsignedLowerOrSame =>
      rw [Condition.holds, Bool.or_eq_true, not_flag_iff carry, zero, equal, Condition.Says]
      omega
  | greaterOrEqual => exact ordered
  | lessThan => exact (not_flag_iff ordered).trans Int.not_le
  | greaterThan =>
      rw [Condition.holds, Bool.and_eq_true, not_flag_iff zero, ordered, signedEqual,
        Condition.Says]
      omega
  | lessOrEqual =>
      rw [Condition.holds, Bool.or_eq_true, bne, zero, not_flag_iff ordered, signedEqual,
        Condition.Says]
      omega
  | always => exact iff_of_true rfl trivial

end Calculation

namespace Action

variable {machine : Machine} {source : Int} {second : Operand}

/-- After a comparison, a condition holds if it is true of what was compared. -/
theorem comparison_ordered {value : Int} {condition : Condition}
    (decoded : Instruction.decode value = .ok ⟨condition, .compare source second⟩)
    (holds : condition.holds machine.flags = true) :
    ∃ (word : Word) (shiftCarry : Bool) (after : Machine),
      (operand second).run machine.advance = .ok ⟨word.toInt, shiftCarry⟩ machine.advance ∧
      (execute ⟨condition, .compare source second⟩).run machine = .ok () after ∧
      ∀ next : Condition,
        next.holds after.flags = true ↔ next.Says (machine.sourceValue source) word := by
  have wellFormed : (Operation.compare source second).WellFormed :=
    Instruction.wellFormed_of_decode decoded
  rcases run_computation machine wellFormed rfl with ⟨word, shiftCarry, read, performed⟩
  refine ⟨word, shiftCarry, machine.computed _ word, read, Eq.trans ?_ performed, fun next => ?_⟩
  · rw [run_execute, if_pos holds]
  · exact Calculation.holds_difference _ word machine.flags.carry next

/-- The least signed number is below one, though their difference is positive. -/
theorem comparison_ordered_overflow :
    let machine : Machine :=
      { memory := .zeros 8, registers := (Vector.replicate 16 0).setIfInBounds 1 0x80000000 }
    ∃ after, (execute ⟨.always, .compare 1 (.immediate 1 false 0)⟩).run machine = .ok () after ∧
      Condition.lessThan.holds after.flags = true ∧
      Condition.positive.holds after.flags = true ∧
      Condition.unsignedHigher.holds after.flags = true := by
  intro machine
  have decoded : Instruction.decode 0xE3510001 =
      .ok ⟨.always, .compare 1 (.immediate 1 false 0)⟩ := rfl
  have holds : Condition.always.holds machine.flags = true := rfl
  rcases comparison_ordered decoded holds with ⟨word, shiftCarry, after, read, executed, ordered⟩
  have evaluated : (operand (.immediate 1 false 0)).run machine.advance =
      .ok ⟨(1 : Word).toInt, false⟩ machine.advance := rfl
  have source : machine.sourceValue 1 = 0x80000000 := rfl
  have less : BitVec.toInt (0x80000000 : Word) < BitVec.toInt (1 : Word) := by decide
  have positive : 0 ≤ BitVec.toInt (0x80000000 - 1 : Word) := by decide
  have higher : BitVec.toNat (1 : Word) < BitVec.toNat (0x80000000 : Word) := by decide
  rw [source, operand_word_unique read evaluated] at ordered
  exact ⟨after, executed, (ordered .lessThan).mpr less, (ordered .positive).mpr positive,
    (ordered .unsignedHigher).mpr higher⟩

end Action

end Arm32
