import Arm32.Proofs.Word.Shifts

namespace Arm32

/-! Integers as words. What has not been reduced to a word yet is an integer without
bounds. Its bits go on without an end, and a word has the lowest 32 of them, which a
rotation takes around the word. -/

/-! ## Bits -/

theorem bitOf_natCast (value index : Nat) : bitOf value index = value.testBit index := by
  rw [bitOf, Nat.testBit_eq_decide_div_mod_eq, Nat.one_shiftLeft, ← Int.natCast_ediv,
    Bool.eq_iff_iff, beq_iff_eq, decide_eq_true_iff]
  omega

theorem bitOf_toInt (word : Word) (index : Nat) :
    bitOf word.toInt index = word.getLsbD index := by
  rw [Word.toInt, bitOf_natCast, BitVec.testBit_toNat]

theorem isNegative_toInt (word : Word) : isNegative word.toInt = word.getLsbD 31 := by
  rw [isNegative_eq, bitOf_toInt]

/-- A reduction to some width keeps the bits inside that width. -/
theorem bitOf_emod (value : Int) {index width : Nat} (inside : index < width) :
    bitOf (value % (1 <<< width : Nat)) index = bitOf value index := by
  rcases Nat.exists_eq_add_of_lt inside with ⟨above, rfl⟩
  have positive : ((1 <<< index : Nat) : Int) ≠ 0 :=
    Int.ofNat_ne_zero.mpr (Nat.ne_of_gt (one_shiftLeft_pos index))
  have weight : 1 <<< (index + above + 1) = 1 <<< index * (2 * 1 <<< above) := by
    rw [Nat.add_assoc, Nat.one_shiftLeft, Nat.one_shiftLeft, Nat.one_shiftLeft, Nat.pow_add,
      Nat.pow_succ']
  -- What the reduction takes away is an even multiple of the bit's weight.
  have whole := Int.emod_add_mul_ediv value (1 <<< (index + above + 1) : Nat)
  generalize value % (1 <<< (index + above + 1) : Nat) = reduced at whole ⊢
  generalize value / (1 <<< (index + above + 1) : Nat) = turns at whole
  rw [weight, Int.natCast_mul, Int.natCast_mul, Int.mul_assoc, Int.mul_assoc] at whole
  rw [bitOf, bitOf, ← whole, Int.add_mul_ediv_left _ _ positive]
  exact congrArg (· == 1) (Int.add_mul_emod_self_left _ 2 _).symm

theorem getLsbD_ofInt (value : Int) {index width : Nat} (inside : index < width) :
    (BitVec.ofInt width value).getLsbD index = bitOf value index := by
  have positive : 0 < ((1 <<< width : Nat) : Int) := Int.natCast_pos.mpr (one_shiftLeft_pos width)
  have reduced : ((BitVec.ofInt width value).toNat : Int) = value % (1 <<< width : Nat) := by
    rw [BitVec.toNat_ofInt, ← Nat.one_shiftLeft]
    exact Int.toNat_of_nonneg (Int.emod_nonneg _ (Int.ne_of_gt positive))
  rw [← BitVec.testBit_toNat, ← bitOf_natCast, reduced, bitOf_emod value inside]

namespace Word

/-- A field is extended as a packed vector of its width is. -/
theorem signExtend_ofInt (value : Int) (width : Nat) :
    signExtend value width = BitVec.signExtend 32 (BitVec.ofInt width value) := by
  rw [signExtend_eq_ofInt, ofInt_eq, BitVec.signExtend, BitVec.toInt_ofInt, Nat.one_shiftLeft]

/-! ## Rotations -/

/-- The amounts of rotations add up, whatever their signs and sizes. The opposite amount
leads back to the low 32 bits, and each bit moves down by the amount, counted around the
word. -/
theorem rotateRight_acts (value first second : Int) :
    rotateRight (rotateRight value first).toInt second = rotateRight value (first + second) ∧
      (rotateRight (rotateRight value first).toInt (-first)).toInt = value % 0x100000000 ∧
      ∀ index : Nat, index < 32 →
        (rotateRight value first).getLsbD index = bitOf value ((index + first) % 32).toNat := by
  refine ⟨rotateRight_rotateRight value first second, ?back, fun index inside => ?bits⟩
  case back =>
    rw [rotateRight_rotateRight, Int.add_right_neg, rotateRight_zero]
    exact toNat_ofInt value
  case bits =>
    have place : ((index + first) % 32).toNat < 32 := by omega
    rw [getLsbD_rotateRight value first inside, ofInt_eq, getLsbD_ofInt value place]

theorem rotateRight_acts_leftwards :
    1 < 32 ∧ rotateRight (rotateRight (-2) (-33)).toInt 65 = rotateRight (-2) 32 ∧
      (rotateRight (rotateRight (-2) (-33)).toInt 33).toInt = 0xFFFFFFFE ∧
      (rotateRight (-2) (-33)).getLsbD 1 = false := by
  have rotated := rotateRight_acts (-2) (-33) 65
  exact ⟨by decide, rotated.1, rotated.2.1, rotated.2.2 1 (by decide)⟩

end Word

end Arm32
