import Arm32.Arithmetic
import Arm32.Proofs.Word.Shifts

namespace Arm32

/-! Exact arithmetic. A calculation is made in integers, which have no limit; what a
register and the flags keep of it is told by comparing with the limits of a word. The
shortcuts of the processor, a comparison of the result with an operand and one of the
signs, come to the same. -/

/-- The calculations that set all four flags. -/
inductive Calculation where
  | sum
  | sumWithCarry
  | difference
deriving DecidableEq, Repr

namespace Calculation

/-- The outcome in integers. -/
def exact (calculation : Calculation) (first second : Int) (carryIn : Bool) : Int :=
  match calculation with
  | .sum => first + second
  | .sumWithCarry => first + second + carryIn.toInt
  | .difference => first - second

def result (calculation : Calculation) (first second : Word) (carryIn : Bool) : Word :=
  Word.ofInt (calculation.exact first.toInt second.toInt carryIn)

/-- A sum carries if a word has no room for it, and a difference if nothing has to be
borrowed. -/
def carries (calculation : Calculation) (first second : Word) (carryIn : Bool) : Bool :=
  match calculation with
  | .sum | .sumWithCarry =>
      decide (0x100000000 ≤ calculation.exact first.toInt second.toInt carryIn)
  | .difference => decide (second.toInt ≤ first.toInt)

/-- In two's complement, a word has no room for the outcome. -/
def overflows (calculation : Calculation) (first second : Word) (carryIn : Bool) : Bool :=
  let outcome := calculation.exact (BitVec.toInt first) (BitVec.toInt second) carryIn
  !decide (-0x80000000 ≤ outcome ∧ outcome < 0x80000000)

def flags (calculation : Calculation) (first second : Word) (carryIn : Bool) : Flags where
  negative := decide (0x80000000 ≤ (calculation.result first second carryIn).toInt)
  zero := decide (calculation.result first second carryIn = 0)
  carry := calculation.carries first second carryIn
  overflow := calculation.overflows first second carryIn

theorem carry_flags (calculation : Calculation) (first second : Word) (carryIn : Bool) :
    (calculation.flags first second carryIn).carry = calculation.carries first second carryIn :=
  rfl

example : Calculation.difference.flags 0x80000000 1 false = ⟨false, false, true, true⟩ := by decide

/-! ## Signs -/

theorem isNegative_of_bounds {value : Int} (nonnegative : 0 ≤ value)
    (bound : value < 0x100000000) : isNegative value = decide (0x80000000 ≤ value) := by
  rw [isNegative, Bool.eq_iff_iff, beq_iff_eq, decide_eq_true_iff]
  omega

theorem isNegative_word (word : Word) :
    isNegative word.toInt = decide (0x80000000 ≤ word.toInt) := by
  have bound := word.isLt
  apply isNegative_of_bounds
  · exact Int.natCast_nonneg _
  · simp only [Word.toInt]
    omega

theorem signed_cases (word : Word) :
    (word.toInt < 0x80000000 ∧ BitVec.toInt word = word.toInt) ∨
      (0x80000000 ≤ word.toInt ∧ BitVec.toInt word = word.toInt - 0x100000000) := by
  rw [word.signed_eq, isNegative_word]
  by_cases negative : 0x80000000 ≤ word.toInt
  · exact .inr ⟨negative, if_pos (decide_eq_true negative)⟩
  · exact .inl ⟨by omega, if_neg fun decided => negative (of_decide_eq_true decided)⟩

/-! ## The shortcuts -/

/-- The data result that a calculation amounts to. -/
def dataResult (calculation : Calculation) (first second : Word) (carryIn : Bool) : DataResult where
  value := (calculation.result first second carryIn).toInt
  carry := calculation.carries first second carryIn
  overflow? := some (calculation.overflows first second carryIn)

theorem overflows_iff (calculation : Calculation) (first second : Word) (carryIn : Bool) :
    calculation.overflows first second carryIn = true ↔
      ¬ (-0x80000000 ≤ calculation.exact (BitVec.toInt first) (BitVec.toInt second) carryIn ∧
        calculation.exact (BitVec.toInt first) (BitVec.toInt second) carryIn < 0x80000000) := by
  rw [overflows, Bool.not_eq_true', decide_eq_false_iff_not]

theorem toInt_result (calculation : Calculation) (first second : Word) (carryIn : Bool) :
    (calculation.result first second carryIn).toInt =
      calculation.exact first.toInt second.toInt carryIn % 0x100000000 :=
  Word.toNat_ofInt _

/-- A sum overflows if its sign is that of neither operand. -/
theorem overflows_sumWithCarry (first second : Word) (carryIn : Bool) :
    sumWithCarry.overflows first second carryIn =
      (isNegative first.toInt == isNegative second.toInt &&
        isNegative (sumWithCarry.result first second carryIn).toInt != isNegative first.toInt) := by
  have firstBound := first.isLt
  have secondBound := second.isLt
  have firstSign := signed_cases first
  have secondSign := signed_cases second
  have carryBound : carryIn.toInt = 0 ∨ carryIn.toInt = 1 := by cases carryIn <;> decide
  rw [Bool.eq_iff_iff, overflows_iff, Bool.and_eq_true, beq_iff_eq, bne_iff_ne, isNegative_word,
    isNegative_word, isNegative_word, ne_eq, decide_eq_decide, decide_eq_decide, toInt_result]
  simp only [exact, Word.toInt] at firstSign secondSign ⊢
  omega

/-- A difference overflows if its operands differ in sign and it has that of the second. -/
theorem overflows_difference (first second : Word) (carryIn : Bool) :
    difference.overflows first second carryIn =
      (isNegative first.toInt != isNegative second.toInt &&
        isNegative (difference.result first second carryIn).toInt != isNegative first.toInt) := by
  have firstBound := first.isLt
  have secondBound := second.isLt
  have firstSign := signed_cases first
  have secondSign := signed_cases second
  rw [Bool.eq_iff_iff, overflows_iff, Bool.and_eq_true, bne_iff_ne, bne_iff_ne, isNegative_word,
    isNegative_word, isNegative_word, ne_eq, ne_eq, decide_eq_decide, decide_eq_decide,
    toInt_result]
  simp only [exact, Word.toInt] at firstSign secondSign ⊢
  omega

theorem add_eq (first second : Word) (carryIn : Bool) :
    Arithmetic.add first.toInt second.toInt carryIn =
      sumWithCarry.dataResult first second carryIn := by
  rw [dataResult, overflows_sumWithCarry, toInt_result, Arithmetic.add, carries, exact]
  rfl

theorem subtract_eq (first second : Word) (carryIn : Bool) :
    Arithmetic.subtract first.toInt second.toInt =
      difference.dataResult first second carryIn := by
  have firstBound := first.isLt
  have secondBound := second.isLt
  -- What was borrowed makes the result larger than the first operand.
  have unborrowed : decide ((first.toInt - second.toInt) % 0x100000000 ≤ first.toInt) =
      difference.carries first second carryIn := by
    rw [carries, decide_eq_decide]
    simp only [Word.toInt]
    omega
  rw [dataResult, overflows_difference, toInt_result, Arithmetic.subtract, ← unborrowed, exact]

/-- A sum is a sum with no carry. -/
theorem dataResult_sum (first second : Word) (carryIn : Bool) :
    sum.dataResult first second carryIn = sumWithCarry.dataResult first second false := by
  have same (first second : Int) :
      sum.exact first second carryIn = sumWithCarry.exact first second false :=
    (Int.add_zero _).symm
  rw [dataResult, dataResult, result, result, carries, carries, overflows, overflows, same, same]

/-- The calculation of an operator, if it is one of arithmetic. -/
def ofOperator? : DataOperator → Option Calculation
  | .add => some .sum
  | .addWithCarry => some .sumWithCarry
  | .subtract => some .difference
  | .and | .or => none

theorem apply_eq {operator : DataOperator} {calculation : Calculation}
    (calculates : ofOperator? operator = some calculation) (first second : Word)
    (shiftCarry carryIn : Bool) :
    operator.apply first ⟨second.toInt, shiftCarry⟩ carryIn =
      calculation.dataResult first second carryIn := by
  cases operator with
  | add =>
      cases calculates
      exact (add_eq first second false).trans (dataResult_sum first second carryIn).symm
  | addWithCarry =>
      cases calculates
      exact add_eq first second carryIn
  | subtract =>
      cases calculates
      exact subtract_eq first second carryIn
  | and | or => cases calculates

/-- All four flags are set, so that nothing is left of the earlier ones. -/
theorem update_dataResult (calculation : Calculation) (first second : Word) (carryIn : Bool)
    (earlier : Flags) :
    earlier.update (calculation.dataResult first second carryIn).negative
        (calculation.dataResult first second carryIn).isZero
        (calculation.dataResult first second carryIn).carry
        (calculation.dataResult first second carryIn).overflow? =
      calculation.flags first second carryIn := by
  have zero : (calculation.dataResult first second carryIn).isZero =
      decide (calculation.result first second carryIn = 0) := by
    rw [DataResult.isZero, dataResult, Bool.eq_iff_iff, beq_iff_eq, decide_eq_true_iff]
    constructor
    · intro none
      exact Word.toInt_injective none
    · intro none
      rw [none]
      rfl
  rw [zero, DataResult.negative, dataResult, isNegative_word]
  rfl

end Calculation

end Arm32
