import Arm32.Proofs.Execution.Operands
import Arm32.Proofs.Word.Integers

namespace Arm32

/-! The law of the barrel shifter. The shifter tells apart amounts of zero, amounts
below the width of a word, the width itself and what lies beyond. The law does not: a
shift multiplies or divides by a power of two, its carry is the bit that has just
crossed the end of the word, and a rotation takes each bit to its place. -/

/-! ## Bits of words -/

/-- The bits of a multiple by a power of two are those of the word, moved up. -/
theorem bitOf_multiple (word : Word) (amount index : Nat) :
    bitOf (word.toInt * (1 <<< amount : Nat)) index =
      (decide (amount ≤ index) && word.getLsbD (index - amount)) := by
  rw [Word.toInt, ← Int.natCast_mul, bitOf_natCast, Nat.one_shiftLeft, ← Nat.shiftLeft_eq,
    Nat.testBit_shiftLeft, BitVec.testBit_toNat]

theorem bitOf_signed_zero (word : Word) : bitOf (BitVec.toInt word) 0 = word.getLsbD 0 := by
  rw [← bitOf_toInt, word.signed_eq, bitOf, bitOf, Bool.eq_iff_iff, beq_iff_eq, beq_iff_eq]
  dsimp only [Nat.reduceShiftLeft]
  split <;> omega

/-- In two's complement the sign goes on without an end. -/
theorem bitOf_signed (word : Word) (index : Nat) :
    bitOf (BitVec.toInt word) index = word.getLsbD (min index 31) := by
  -- The bit is the lowest one after an arithmetic shift, which a packed word has as well.
  have moved :
      bitOf (BitVec.toInt word) index = bitOf (BitVec.toInt (word.sshiftRight index)) 0 := by
    rw [BitVec.toInt_sshiftRight, Int.shiftRight_eq_div_pow, bitOf, bitOf, Nat.one_shiftLeft]
    exact congrArg (· % 2 == 1) (Int.ediv_one _).symm
  rw [moved, bitOf_signed_zero, BitVec.getLsbD_sshiftRight]
  by_cases inside : index < 32
  · have place : min index 31 = index := by omega
    simp [inside, place]
  · have place : min index 31 = 31 := by omega
    simp [inside, place, BitVec.msb_eq_getLsbD_last]

/-- A word shifted by an encoded amount. A right shift by no bits has no encoding of
its own, and its code means 32 bits; a rotation by 32 bits moves nothing. -/
def ShiftKind.apply (kind : ShiftKind) (word : Word) (amount : Nat) : Word :=
  match kind with
  | .logicalLeft => word <<< amount
  | .logicalRight => word >>> (if amount = 0 then 32 else amount)
  | .arithmeticRight => word.sshiftRight (if amount = 0 then 32 else amount)
  | .rotateRight => BitVec.rotateRight word amount

example : ShiftKind.arithmeticRight.apply 0x80000000 0 = 0xFFFFFFFF := by decide

namespace Shifter

/-- The outcome of a shift by any number of bits. A shift by none passes the carry on. -/
def uniform (kind : ShiftKind) (word : Word) (amount : Nat) (carryIn : Bool) : Output :=
  if amount = 0 then ⟨word.toInt, carryIn⟩
  else
    match kind with
    | .logicalLeft =>
        let multiple := word.toInt * (1 <<< amount : Nat)
        ⟨multiple % 0x100000000, bitOf multiple 32⟩
    | .logicalRight => ⟨word.toInt / (1 <<< amount : Nat), bitOf word.toInt (amount - 1)⟩
    | .arithmeticRight =>
        let signed := BitVec.toInt word
        ⟨signed / (1 <<< amount : Nat) % 0x100000000, bitOf signed (amount - 1)⟩
    | .rotateRight =>
        let rotated : Word := BitVec.rotateRight word amount
        ⟨rotated.toInt, rotated.getLsbD 31⟩

example : uniform .arithmeticRight 0x80000000 40 false = ⟨0xFFFFFFFF, true⟩ := by decide

/-! ## The shifter follows the law -/

variable {amount : Nat}

theorem power_large (large : 32 ≤ amount) : (0x100000000 : Int) ≤ (1 <<< amount : Nat) := by
  have power : 2 ^ 32 ≤ 2 ^ amount := Nat.pow_le_pow_right (by decide) large
  rw [Nat.one_shiftLeft]
  omega

theorem multiple_of_large (word : Word) (large : 32 ≤ amount) :
    word.toInt * (1 <<< amount : Nat) % 0x100000000 = 0 := by
  rw [← Word.toNat_ofInt, ← word.shiftLeft_eq, BitVec.shiftLeft_eq_zero large]
  rfl

theorem quotient_of_large (word : Word) (large : 32 ≤ amount) :
    word.toInt / (1 <<< amount : Nat) = 0 := by
  have bound := word.isLt
  have power := power_large large
  apply Int.ediv_eq_zero_of_lt
  · exact Int.natCast_nonneg _
  · simp only [Word.toInt]
    omega

/-- Only the sign is left. -/
theorem signed_quotient_of_large (word : Word) (large : 32 ≤ amount) :
    BitVec.toInt word / (1 <<< amount : Nat) = if isNegative word.toInt then -1 else 0 := by
  have bound := word.isLt
  have power := power_large large
  rw [word.signed_eq]
  split
  case isTrue negative =>
    simp only [isNegative, beq_iff_eq, Word.toInt] at negative ⊢
    apply Int.ediv_eq_neg_one_of_neg_of_le
    · omega
    · omega
  case isFalse => exact quotient_of_large word large

theorem logicalLeft_eq (word : Word) (amount : Nat) (carryIn : Bool) :
    logicalLeft word.toInt amount carryIn = uniform .logicalLeft word amount carryIn := by
  rw [logicalLeft, uniform]
  dsimp only
  rw [bitOf_multiple, bitOf_toInt, bitOf_toInt]
  split
  case isTrue => rfl
  case isFalse =>
    split
    case isTrue below => simp [Nat.le_of_lt below]
    case isFalse notBelow =>
      have large : 32 ≤ amount := by omega
      rw [multiple_of_large word large]
      split
      case isTrue all => simp [all]
      case isFalse notAll =>
        have beyond : ¬ amount ≤ 32 := by omega
        simp [beyond]

theorem logicalRight_eq (word : Word) (amount : Nat) (carryIn : Bool) :
    logicalRight word.toInt amount carryIn = uniform .logicalRight word amount carryIn := by
  rw [logicalRight, uniform]
  split
  case isTrue => rfl
  case isFalse =>
    split
    case isTrue => rfl
    case isFalse notBelow =>
      have large : 32 ≤ amount := by omega
      rw [quotient_of_large word large]
      split
      case isTrue all => rw [all, isNegative_eq]
      case isFalse notAll =>
        have beyond : 32 ≤ amount - 1 := by omega
        rw [bitOf_toInt, BitVec.getLsbD_of_ge _ _ beyond]

theorem arithmeticRight_eq (word : Word) (amount : Nat) (carryIn : Bool) :
    arithmeticRight word.toInt amount carryIn = uniform .arithmeticRight word amount carryIn := by
  rw [arithmeticRight, uniform]
  dsimp only
  rw [bitOf_toInt, bitOf_signed]
  split
  case isTrue => rfl
  case isFalse positive =>
    split
    case isTrue below =>
      have place : min (amount - 1) 31 = amount - 1 := by omega
      rw [place, word.signed_eq]
    case isFalse notBelow =>
      have large : 32 ≤ amount := by omega
      have place : min (amount - 1) 31 = 31 := by omega
      rw [place, signed_quotient_of_large word large, ← isNegative_toInt]
      split <;> rfl

theorem rotateRight_eq (word : Word) (amount : Nat) (carryIn : Bool) :
    rotateRight word.toInt amount carryIn = uniform .rotateRight word amount carryIn := by
  rw [rotateRight, uniform]
  dsimp only
  rw [isNegative_toInt, word.rotateRight_toInt]
  by_cases none : amount = 0
  · rw [if_pos none, if_pos (by omega)]
  · rw [if_neg none, if_neg (by omega)]

theorem outcome_zero (kind : ShiftKind) (value : Int) (carryIn : Bool) :
    outcome kind value 0 carryIn = ⟨value, carryIn⟩ := by
  cases kind <;> rfl

/-- A rotation by a whole word moves nothing. -/
theorem rotateRight_whole (word : Word) (carryIn : Bool) :
    (rotateRight word.toInt 32 carryIn).value = word.toInt := by
  have unmoved : Word.rotateRight word.toInt 32 = word :=
    (Word.rotateRight_zero word.toInt).trans word.ofInt_toInt
  exact congrArg Word.toInt unmoved

theorem outcome_eq_uniform (kind : ShiftKind) (word : Word) (amount : Nat) (carryIn : Bool) :
    outcome kind word.toInt amount carryIn = uniform kind word amount carryIn := by
  cases kind with
  | logicalLeft => exact logicalLeft_eq word amount carryIn
  | logicalRight => exact logicalRight_eq word amount carryIn
  | arithmeticRight => exact arithmeticRight_eq word amount carryIn
  | rotateRight => exact rotateRight_eq word amount carryIn

/-- A word comes out, whatever is shifted in. -/
theorem uniform_bounds (kind : ShiftKind) (word : Word) (amount : Nat) (carryIn : Bool) :
    0 ≤ (uniform kind word amount carryIn).value ∧
      (uniform kind word amount carryIn).value < 0x100000000 := by
  have bound := word.isLt
  unfold uniform
  split
  case isTrue =>
    simp only [Word.toInt]
    omega
  case isFalse =>
    cases kind with
    | logicalLeft | arithmeticRight =>
        dsimp only
        omega
    | logicalRight =>
        have smaller : word.toNat / 1 <<< amount < 0x100000000 :=
          Nat.lt_of_le_of_lt (Nat.div_le_self _ _) bound
        simp only [Word.toInt, ← Int.natCast_ediv]
        exact ⟨Int.natCast_nonneg _, Int.ofNat_lt.mpr smaller⟩
    | rotateRight =>
        have rotatedBound := (BitVec.rotateRight word amount).isLt
        simp only [Word.toInt]
        omega

/-! ## Encoded amounts -/

/-- The outcome of a shift, as a word, is the native shift of the packed word. -/
theorem ofInt_uniform (kind : ShiftKind) (word : Word) (amount : Nat) (carryIn : Bool) :
    Word.ofInt (uniform kind word amount carryIn).value =
      match kind with
      | .logicalLeft => word <<< amount
      | .logicalRight => word >>> amount
      | .arithmeticRight => word.sshiftRight amount
      | .rotateRight => BitVec.rotateRight word amount := by
  unfold uniform
  split
  case isTrue none =>
    subst none
    have unmoved : BitVec.rotateRight word 0 = word := by
      rw [← word.rotateRight_toInt]
      exact (Word.rotateRight_zero _).trans word.ofInt_toInt
    cases kind <;> simp [unmoved]
  case isFalse =>
    cases kind with
    | logicalLeft => exact (Word.ofInt_emod _).trans (word.shiftLeft_eq amount).symm
    | logicalRight => exact (word.ushiftRight_eq amount).symm
    | arithmeticRight => exact (Word.ofInt_emod _).trans (word.sshiftRight_eq amount).symm
    | rotateRight => exact Word.ofInt_toInt _

/-- The value that the shifter gives for an encoded amount. -/
theorem ofInt_outcome_encodedAmount (kind : ShiftKind) (word : Word) (carryIn : Bool)
    {amount : Int} (fits : Fits 5 amount) :
    Word.ofInt (outcome kind word.toInt (encodedAmount kind amount).toNat carryIn).value =
      kind.apply word amount.toNat := by
  rw [outcome_eq_uniform, ofInt_uniform, encodedAmount]
  have nonnegative := fits.nonneg
  by_cases none : amount = 0
  · subst none
    have around : BitVec.rotateRight word (32 % 32) = BitVec.rotateRight word 32 :=
      BitVec.rotateRight_mod_eq_rotateRight
    cases kind with
    | logicalLeft | logicalRight | arithmeticRight => rfl
    | rotateRight => exact around.symm
  · have some : amount.toNat ≠ 0 := by omega
    cases kind <;> simp [none, some, ShiftKind.apply]

/-- The shifter follows one law for every value and every amount, without exceptions at
the width of a word or at its multiples, and a word comes out. The bits of a rotation
have moved down around the word. -/
theorem shift_lawful (kind : ShiftKind) (value : Int) (amount : Nat) (carryIn : Bool) :
    shift kind value amount carryIn = .ok (uniform kind (Word.ofInt value) amount carryIn) ∧
      0 ≤ (uniform kind (Word.ofInt value) amount carryIn).value ∧
      (uniform kind (Word.ofInt value) amount carryIn).value < 0x100000000 ∧
      ∀ index < 32, (BitVec.rotateRight (Word.ofInt value) amount).getLsbD index =
        (Word.ofInt value).getLsbD ((index + amount) % 32) := by
  have reduced : value % 0x100000000 = (Word.ofInt value).toInt := (Word.toNat_ofInt value).symm
  have bounds := uniform_bounds kind (Word.ofInt value) amount carryIn
  refine ⟨?_, bounds.1, bounds.2, fun index inside => ?_⟩
  · rw [shift_of_nonneg kind value carryIn (Int.natCast_nonneg amount), reduced,
      Int.toNat_natCast, outcome_eq_uniform]
  · exact (Word.ofInt value).getLsbD_rotated amount inside

end Shifter

end Arm32
