import Arm32.Word

namespace Arm32.Word

/-! Bits of words. Fields that touch make one field; a rotation moves bits without
losing any, so rotations add up; a mask splits a word into the bits that it selects
and the rest. -/

/-! ## Fields -/

/-- A field is its lower part and, above it, its upper part. -/
theorem field_append (word : Word) (low lower upper : Nat) :
    word.field low (lower + upper) =
      word.field low lower + word.field (low + lower) upper <<< lower := by
  simp only [field, Nat.one_shiftLeft]
  rw [Nat.pow_add, Nat.pow_add, Nat.mod_mul, Nat.div_div_eq_div_mul, Nat.shiftLeft_eq]
  exact congrArg _ (Nat.mul_comm _ _)

/-- Fields that follow one another from a place on, given by their widths, as one number. -/
def joinedFields (word : Word) : (low : Nat) → (widths : List Nat) → Nat
  | _, [] => 0
  | low, width :: rest => word.field low width + word.joinedFields (low + width) rest <<< width

/-- A field can be cut into fields of any widths. -/
theorem field_sum (word : Word) (low : Nat) (widths : List Nat) :
    word.field low (widths.foldr (· + ·) 0) = word.joinedFields low widths := by
  induction widths generalizing low with
  | nil => exact Nat.mod_one _
  | cons width rest induction => rw [List.foldr_cons, field_append, induction, joinedFields]

/-! ## Rotations -/

theorem getLsbD_rotateRight (value amount : Int) {index : Nat} (inside : index < 32) :
    (rotateRight value amount).getLsbD index =
      (ofInt value).getLsbD ((index + amount) % 32).toNat := by
  have small : (amount % 32).toNat % 32 = (amount % 32).toNat := by omega
  rw [rotateRight_eq, BitVec.getLsbD_rotateRight, small]
  by_cases below : index < 32 - (amount % 32).toNat
  · have place : (amount % 32).toNat + index = ((index + amount) % 32).toNat := by omega
    simp [below, place]
  · -- The bit has come around the end of the word.
    have place : index - (32 - (amount % 32).toNat) = ((index + amount) % 32).toNat := by omega
    simp [below, inside, place]

theorem rotateRight_zero (value : Int) : rotateRight value 0 = ofInt value := by
  apply BitVec.eq_of_getLsbD_eq
  intro index inside
  have place : ((index + 0 : Int) % 32).toNat = index := by omega
  rw [getLsbD_rotateRight value 0 inside, place]

theorem rotateRight_rotateRight (value first second : Int) :
    rotateRight (rotateRight value first).toInt second = rotateRight value (first + second) := by
  apply BitVec.eq_of_getLsbD_eq
  intro index inside
  have between : ((index + second) % 32).toNat < 32 := by omega
  have place : ((((index + second) % 32).toNat : Int) + first) % 32 =
      (index + (first + second)) % 32 := by omega
  rw [getLsbD_rotateRight _ _ inside, ofInt_toInt, getLsbD_rotateRight _ _ between,
    getLsbD_rotateRight _ _ inside, place]

/-! ## Masks -/

/-- A mask of adjacent ones selects one field. -/
theorem toNat_and_mask (word : Word) {mask : Word} {low width : Nat}
    (shape : mask.toNat = (1 <<< width - 1) <<< low) :
    (word &&& mask).toNat = word.field low width <<< low := by
  rw [BitVec.toNat_and, shape, field, Nat.one_shiftLeft, Nat.one_shiftLeft]
  -- Bit by bit: the mask keeps exactly the bits that the shifted field has.
  apply Nat.eq_of_testBit_eq
  intro index
  rw [Nat.testBit_and, Nat.testBit_shiftLeft, Nat.testBit_shiftLeft, Nat.testBit_two_pow_sub_one,
    Nat.testBit_mod_two_pow, Nat.testBit_div_two_pow]
  by_cases above : low ≤ index
  · rw [Nat.sub_add_cancel above, Bool.and_comm, Bool.and_assoc]
  · simp [above]

theorem and_not_add_and (word mask : Word) : (word &&& ~~~mask) + (word &&& mask) = word := by
  have apart : (word &&& ~~~mask) &&& (word &&& mask) = 0#32 := by
    apply BitVec.eq_of_getLsbD_eq
    intro index inside
    simp only [BitVec.getLsbD_and, BitVec.getLsbD_not, BitVec.getLsbD_zero]
    cases mask.getLsbD index <;> simp
  rw [BitVec.add_eq_or_of_and_eq_zero _ _ apart]
  apply BitVec.eq_of_getLsbD_eq
  intro index inside
  simp only [BitVec.getLsbD_or, BitVec.getLsbD_and, BitVec.getLsbD_not, inside]
  cases mask.getLsbD index <;> simp

theorem toNat_and_not_add (word mask : Word) :
    (word &&& ~~~mask).toNat + (word &&& mask).toNat = word.toNat := by
  have sum := congrArg BitVec.toNat (word.and_not_add_and mask)
  have inside := (word &&& ~~~mask).isLt
  have wordInside := word.isLt
  -- The part is not larger than the word, so the addition has no carry.
  have part : (word &&& mask).toNat ≤ word.toNat := by
    rw [BitVec.toNat_and]
    exact Nat.and_le_left
  rw [BitVec.toNat_add] at sum
  omega

/-- Two words have the same bits outside a mask. -/
theorem and_not_eq_iff (first second mask : Word) :
    first &&& ~~~mask = second &&& ~~~mask ↔
      ∀ index, mask.getLsbD index = false → first.getLsbD index = second.getLsbD index := by
  constructor
  · intro equal index chosen
    by_cases inside : index < 32
    · have bits := congrArg (BitVec.getLsbD · index) equal
      simpa only [BitVec.getLsbD_and, BitVec.getLsbD_not, inside, chosen, decide_true,
        Bool.not_false, Bool.and_true] using bits
    · rw [BitVec.getLsbD_of_ge _ _ (by omega), BitVec.getLsbD_of_ge _ _ (by omega)]
  · intro agree
    apply BitVec.eq_of_getLsbD_eq
    intro index inside
    simp only [BitVec.getLsbD_and, BitVec.getLsbD_not, inside, decide_true, Bool.true_and]
    cases chosen : mask.getLsbD index with
    | true => simp
    | false => rw [agree index chosen]

end Arm32.Word
