import Arm32.Field
import Arm32.Proofs.Word.Integers

namespace Arm32

/-! Signs of fields. A field of any width, cut from an integer of any size, has one reading
in two's complement; the word that it is extended to has the same reading. -/

variable {value signed : Int} {width : Nat}

/-! ## Readings -/

/-- An integer with a sign that has the same low bits and fits into them. -/
structure SignedReading (value : Int) (width : Nat) (signed : Int) : Prop where
  lower : -(1 <<< (width - 1) : Nat) ≤ signed
  upper : signed < (1 <<< (width - 1) : Nat)
  congruent : signed % (1 <<< width : Nat) = value % (1 <<< width : Nat)

/-- Only the low bits are read. -/
theorem toSigned_congr {first second : Int}
    (congruent : first % (1 <<< width : Nat) = second % (1 <<< width : Nat)) :
    toSigned first width = toSigned second width := by
  rw [toSigned_eq, toSigned_eq, ← Int.emod_bmod first, congruent, Int.emod_bmod]

theorem toSigned_emod (value : Int) (width : Nat) :
    toSigned value width % (1 <<< width : Nat) = value % (1 <<< width : Nat) := by
  rw [toSigned_eq]
  exact Int.bmod_emod

theorem toSigned_toSigned (value : Int) (width : Nat) :
    toSigned (toSigned value width) width = toSigned value width :=
  toSigned_congr (toSigned_emod value width)

theorem signedReading_toSigned (value : Int) (positive : 0 < width) :
    SignedReading value width (toSigned value width) := by
  have double := one_shiftLeft_eq_double positive
  have lower := Int.le_bmod (x := value) (one_shiftLeft_pos width)
  have upper := Int.bmod_lt (x := value) (one_shiftLeft_pos width)
  refine ⟨?_, ?_, toSigned_emod value width⟩
  · rw [toSigned_eq]
    omega
  · rw [toSigned_eq]
    omega

theorem signedReading_iff (positive : 0 < width) :
    SignedReading value width signed ↔ signed = toSigned value width := by
  constructor
  · intro reading
    have double := one_shiftLeft_eq_double positive
    rcases reading with ⟨lower, upper, congruent⟩
    rw [← toSigned_congr congruent, toSigned_eq]
    exact (Int.bmod_eq_of_le_mul_two (by omega) (by omega)).symm
  · rintro rfl
    exact signedReading_toSigned value positive

/-! ## Extensions -/

/-- Above its own bits, an extended field repeats the highest of them. -/
theorem Word.getLsbD_signExtend (value : Int) (positive : 0 < width) {index : Nat}
    (inside : index < 32) :
    (signExtend value width).getLsbD index = bitOf value (min index (width - 1)) := by
  have top : width - 1 < width := by omega
  rw [signExtend_ofInt, BitVec.getLsbD_signExtend, BitVec.msb_eq_getLsbD_last,
    decide_eq_true inside, Bool.true_and]
  split
  case isTrue own =>
    have place : min index (width - 1) = index := by omega
    rw [place, getLsbD_ofInt value own]
  case isFalse beyond =>
    have place : min index (width - 1) = width - 1 := by omega
    rw [place, getLsbD_ofInt value top]

theorem Word.toSigned_toInt (word : Word) : toSigned word.toInt 32 = BitVec.toInt word := by
  rw [toSigned_eq, BitVec.toInt_eq_toNat_bmod]
  rfl

/-- The two copies of the extension agree: the word has the low 32 bits of the reading. -/
theorem Word.signExtend_toSigned (value : Int) (width : Nat) :
    signExtend value width = ofInt (toSigned value width) := by
  rw [signExtend_eq_ofInt, toSigned_eq]

/-- A word has room for the reading of a field that is not wider. -/
theorem Word.toSigned_signExtend (value : Int) (fits : width ≤ 32) :
    toSigned (signExtend value width).toInt 32 = toSigned value width := by
  have narrower : min 32 width = width := by omega
  rw [toSigned_toInt, signExtend_ofInt, BitVec.toInt_signExtend, narrower, BitVec.toInt_ofInt,
    Int.bmod_bmod, toSigned_eq, Nat.one_shiftLeft]

namespace Field

theorem checkWidth_of_pos {width : Int} (positive : 1 ≤ width) :
    checkWidth width = .ok width.toNat :=
  if_neg (by omega)

/-- A field with bits has exactly one reading with a sign, and its extension is that
reading as a word: bit by bit the field and, above it, copies of its sign. Both come from
the low bits alone, reading a second time changes nothing, and a word that has room for
the field reads the same. -/
theorem extension_exact (value : Int) {width : Int} (positive : 1 ≤ width) :
    ∃ (signed : Int) (extended : Word),
      toSigned value width = .ok signed ∧
      signExtend value width = .ok extended ∧
      (∀ other, SignedReading value width.toNat other ↔ other = signed) ∧
      extended.toInt = signed % 0x100000000 ∧
      (∀ index < 32, extended.getLsbD index = bitOf value (min index (width.toNat - 1))) ∧
      (∀ other, other % (1 <<< width.toNat : Nat) = value % (1 <<< width.toNat : Nat) →
        toSigned other width = .ok signed ∧ signExtend other width = .ok extended) ∧
      toSigned signed width = .ok signed ∧
      (width ≤ 32 → toSigned extended.toInt 32 = .ok signed) := by
  have bits : 0 < width.toNat := by omega
  have read (other : Int) : toSigned other width = .ok (Arm32.toSigned other width.toNat) := by
    rw [toSigned, checkWidth_of_pos positive]
    rfl
  have extend (other : Int) : signExtend other width = .ok (Word.signExtend other width.toNat) := by
    rw [signExtend, checkWidth_of_pos positive]
    rfl
  refine ⟨Arm32.toSigned value width.toNat, Word.signExtend value width.toNat, read value,
    extend value, fun other => signedReading_iff bits, ?agree,
    fun index inside => Word.getLsbD_signExtend value bits inside,
    fun other congruent => ?lowBits, ?again, fun fits => ?back⟩
  case agree =>
    rw [Word.signExtend_toSigned]
    exact Word.toNat_ofInt _
  case lowBits =>
    have same := toSigned_congr congruent
    have sameWord : Word.signExtend other width.toNat = Word.signExtend value width.toNat := by
      rw [Word.signExtend_toSigned, Word.signExtend_toSigned, same]
    exact ⟨(read other).trans (congrArg Except.ok same),
      (extend other).trans (congrArg Except.ok sameWord)⟩
  case again => exact (read _).trans (congrArg Except.ok (toSigned_toSigned value _))
  case back => exact congrArg Except.ok (Word.toSigned_signExtend value (by omega))

/-- What lies above the field is not read, and its own highest bit is the sign. -/
theorem extension_exact_negative :
    1 ≤ (8 : Int) ∧ SignedReading 0x1FF80 8 (-128) ∧
      toSigned 0x1FF80 8 = .ok (-128) ∧ signExtend 0x1FF80 8 = .ok 0xFFFFFF80 ∧
      toSigned 0xFFFFFF80 32 = .ok (-128) := by
  rcases extension_exact 0x1FF80 (show (1 : Int) ≤ 8 by decide) with
    ⟨signed, extended, read, extend, unique, -, -, -, -, back⟩
  cases read
  cases extend
  exact ⟨by decide, (unique _).mpr rfl, rfl, rfl, back (by decide)⟩

end Field

end Arm32
