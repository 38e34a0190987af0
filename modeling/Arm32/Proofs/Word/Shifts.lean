import Arm32.Proofs.Word.Bits

namespace Arm32.Word

/-! Shifts of words. Packed words have shifts of their own; here they are told in
integers, as products and quotients by powers of two. -/

theorem toInt_injective {first second : Word} (same : first.toInt = second.toInt) :
    first = second :=
  BitVec.eq_of_toNat_eq (Int.ofNat.inj same)

/-- The integer that a word stands for in two's complement. -/
theorem signed_eq (word : Word) :
    BitVec.toInt word =
      if isNegative word.toInt then word.toInt - 0x100000000 else word.toInt := by
  have bound := word.isLt
  rw [BitVec.toInt_eq_toNat_cond]
  simp only [isNegative, beq_iff_eq, toInt]
  split <;> split <;> omega

theorem ofInt_natCast (value : Nat) : ofInt value = BitVec.ofNat 32 value := by
  rw [ofInt_eq, BitVec.ofInt_natCast]

theorem shiftLeft_eq (word : Word) (amount : Nat) :
    word <<< amount = ofInt (word.toInt * (1 <<< amount : Nat)) := by
  rw [toInt, ← Int.natCast_mul, ofInt_natCast, Nat.one_shiftLeft]
  apply BitVec.eq_of_toNat_eq
  rw [BitVec.toNat_shiftLeft, BitVec.toNat_ofNat, Nat.shiftLeft_eq]

theorem ushiftRight_eq (word : Word) (amount : Nat) :
    word >>> amount = ofInt (word.toInt / (1 <<< amount : Nat)) := by
  have small : word.toNat / 2 ^ amount < 2 ^ 32 :=
    Nat.lt_of_le_of_lt (Nat.div_le_self _ _) word.isLt
  rw [toInt, ← Int.natCast_ediv, ofInt_natCast, Nat.one_shiftLeft]
  apply BitVec.eq_of_toNat_eq
  rw [BitVec.toNat_ushiftRight, BitVec.toNat_ofNat, Nat.shiftRight_eq_div_pow,
    Nat.mod_eq_of_lt small]

theorem sshiftRight_eq (word : Word) (amount : Nat) :
    word.sshiftRight amount = ofInt (BitVec.toInt word / (1 <<< amount : Nat)) := by
  rw [ofInt_eq, Nat.one_shiftLeft, BitVec.sshiftRight, Int.shiftRight_eq_div_pow]

/-- Reducing an integer first does not change its word. -/
theorem ofInt_emod (value : Int) : ofInt (value % 0x100000000) = ofInt value := by
  apply BitVec.eq_of_toNat_eq
  have reduced := toNat_ofInt value
  have reducedTwice := toNat_ofInt (value % 0x100000000)
  omega

/-- A rotation does not tell amounts apart that differ by the width of a word. -/
theorem rotateRight_toInt (word : Word) (amount : Nat) :
    rotateRight word.toInt amount = BitVec.rotateRight word amount := by
  have reduced : ((amount : Int) % 32).toNat = amount % 32 := by omega
  rw [rotateRight_eq, word.ofInt_toInt, reduced, BitVec.rotateRight_mod_eq_rotateRight]

theorem getLsbD_rotated (word : Word) (amount : Nat) {index : Nat} (inside : index < 32) :
    (BitVec.rotateRight word amount).getLsbD index = word.getLsbD ((index + amount) % 32) := by
  have place : (((index : Int) + amount) % 32).toNat = (index + amount) % 32 := by omega
  rw [← rotateRight_toInt, getLsbD_rotateRight _ _ inside, word.ofInt_toInt, place]

end Arm32.Word
