import Arm32.Arithmetic
import Arm32.Proofs.Word.Shifts
import Mathlib.Data.Int.Bitwise

namespace Arm32

/-! Logic on integers. The bits that a word and an integer have in common, or that one of
them has, are worth what the operations on words make of them, however large the integer
is and whether it is negative or not. -/

namespace Word

theorem ofInt_negSucc (value : Nat) : ofInt (Int.negSucc value) = ~~~ BitVec.ofNat 32 value := by
  rw [ofInt_eq]
  exact BitVec.ofInt_negSucc_eq_not_ofNat

/-! ## Bits that only one of two numbers has -/

theorem toNat_and_not (word : Word) (value : Nat) :
    (word &&& ~~~ BitVec.ofNat 32 value).toNat = word.toNat.ldiff value := by
  apply Nat.eq_of_testBit_eq
  intro index
  rw [Nat.testBit_ldiff, BitVec.testBit_toNat, BitVec.testBit_toNat, BitVec.getLsbD_and,
    BitVec.getLsbD_not, BitVec.getLsbD_ofNat]
  by_cases inside : index < 32
  · simp [inside]
  · simp [inside, BitVec.getLsbD_of_ge word index (by omega)]

theorem toNat_not_and (word : Word) (value : Nat) :
    (BitVec.ofNat 32 value &&& ~~~ word).toNat = value.ldiff word.toNat % 0x100000000 := by
  apply Nat.eq_of_testBit_eq
  intro index
  rw [show 0x100000000 = 2 ^ 32 by decide, Nat.testBit_mod_two_pow, Nat.testBit_ldiff,
    BitVec.testBit_toNat, BitVec.testBit_toNat, BitVec.getLsbD_and, BitVec.getLsbD_not,
    BitVec.getLsbD_ofNat]
  by_cases inside : index < 32 <;> simp [inside]

/-- A word has no bits above those of a word. -/
theorem ldiff_div (word : Word) (value : Nat) :
    value.ldiff word.toNat / 0x100000000 = value / 0x100000000 := by
  apply Nat.eq_of_testBit_eq
  intro index
  rw [show 0x100000000 = 2 ^ 32 by decide, Nat.testBit_div_two_pow, Nat.testBit_div_two_pow,
    Nat.testBit_ldiff, BitVec.testBit_toNat, BitVec.getLsbD_of_ge word _ (by omega),
    Bool.not_false, Bool.and_true]

end Word

namespace Arithmetic

theorem land_toInt (word : Word) (value : Int) :
    word.toInt.land value = conjunction word value := by
  have small := word.isLt
  cases value with
  | ofNat value =>
      have common := Nat.lt_of_le_of_lt (Nat.and_le_left (m := value)) small
      have low := Nat.and_mod_two_pow (a := word.toNat) (b := value) (n := 32)
      rw [Nat.mod_eq_of_lt small, Nat.mod_eq_of_lt common] at low
      rw [conjunction, Int.ofNat_eq_natCast, Word.ofInt_natCast, Word.toInt, Word.toInt,
        BitVec.toNat_and, BitVec.toNat_ofNat, ← low]
      rfl
  | negSucc value =>
      rw [conjunction, Word.ofInt_negSucc, Word.toInt, Word.toInt, Word.toNat_and_not]
      rfl

/-- Above its low bits an integer keeps all its bits. -/
theorem lor_toInt (word : Word) (value : Int) :
    word.toInt.lor value = disjunction word value := by
  have small := word.isLt
  cases value with
  | ofNat value =>
      have low : (word.toNat ||| value) % 2 ^ 32 = word.toNat ||| value % 2 ^ 32 := by
        rw [Nat.or_mod_two_pow, Nat.mod_eq_of_lt small]
      have high : (word.toNat ||| value) / 2 ^ 32 = value / 2 ^ 32 := by
        rw [Nat.or_div_two_pow, Nat.div_eq_of_lt small, Nat.zero_or]
      rw [disjunction, Int.ofNat_eq_natCast, Word.ofInt_natCast, Word.toInt, Word.toInt,
        BitVec.toNat_or, BitVec.toNat_ofNat, ← low]
      change ((word.toNat ||| value : Nat) : Int) = _
      omega
  | negSucc value =>
      have inverted : word ||| ~~~ BitVec.ofNat 32 value =
          ~~~ (BitVec.ofNat 32 value &&& ~~~ word) := by
        rw [BitVec.not_and, BitVec.not_not, BitVec.or_comm]
      have high := word.ldiff_div value
      rw [disjunction, Word.ofInt_negSucc, Word.toInt, Word.toInt, inverted, BitVec.toNat_not,
        Word.toNat_not_and]
      change Int.negSucc (value.ldiff word.toNat) = _
      omega

end Arithmetic

end Arm32
