namespace Arm32

/-! Machine words. A word is a packed 32-bit vector; values that have not been
reduced to a word yet are unbounded integers, read in two's complement when
their bits are asked for. -/

abbrev Word := BitVec 32

/-- One bit of the two's complement expansion of `value`, counted from the
least significant. -/
def bitOf (value : Int) (index : Nat) : Bool :=
  value / (1 <<< index : Nat) % 2 == 1

/-- The sign bit of the low 32 bits of `value`. -/
def isNegative (value : Int) : Bool :=
  value / 0x80000000 % 2 == 1

theorem isNegative_eq (value : Int) : isNegative value = bitOf value 31 := rfl

/-! ## Signs -/

theorem one_shiftLeft_pos (width : Nat) : 0 < 1 <<< width := by
  rw [Nat.one_shiftLeft]
  exact Nat.two_pow_pos width

theorem one_shiftLeft_eq_double {width : Nat} (positive : 0 < width) :
    1 <<< width = 2 * 1 <<< (width - 1) := by
  rw [Nat.one_shiftLeft, Nat.one_shiftLeft, ← Nat.pow_succ', Nat.succ_eq_add_one,
    Nat.sub_add_cancel positive]

/-- The low `width` bits of `value`, as a number. -/
def lowBits (value : Int) (width : Nat) : Int :=
  value % (1 <<< width : Nat)

/-- Reads the low `width` bits of `value` in two's complement: the highest of them is the
sign, which counts against the others. -/
def toSigned (value : Int) (width : Nat) : Int :=
  let field := lowBits value width
  if bitOf field (width - 1) then field - (1 <<< width : Nat) else field

/-- The highest bit of a number of `width` bits says in which half of them it lies. -/
theorem bitOf_top {field : Int} {width : Nat} (positive : 0 < width) (lower : 0 ≤ field)
    (upper : field < (1 <<< width : Nat)) :
    bitOf field (width - 1) = decide (((1 <<< (width - 1) : Nat) : Int) ≤ field) := by
  rw [one_shiftLeft_eq_double positive] at upper
  rw [bitOf]
  generalize 1 <<< (width - 1) = half at upper ⊢
  by_cases small : field < half
  · rw [Int.ediv_eq_zero_of_lt lower small, decide_eq_false (by omega)]
    rfl
  · have above : field = (field - half) + half := by omega
    have one : field / half = 1 := by
      rw [above, Int.add_ediv_of_dvd_right (Int.dvd_refl _), Int.ediv_self (by omega),
        Int.ediv_eq_zero_of_lt (by omega) (by omega)]
      rfl
    rw [one, decide_eq_true (by omega)]
    rfl

/-- Subtracting by the sign gives the residue that lies around zero. -/
theorem lowBits_signed (value : Int) (width : Nat) :
    (if bitOf (lowBits value width) (width - 1) then lowBits value width - (1 <<< width : Nat)
      else lowBits value width) = value.bmod (1 <<< width) := by
  cases width with
  | zero =>
      have nothing : lowBits value 0 = 0 := Int.emod_one value
      rw [nothing, Nat.one_shiftLeft, Nat.pow_zero, Int.bmod_one]
      rfl
  | succ width =>
      have modulus := one_shiftLeft_pos (width + 1)
      have double := one_shiftLeft_eq_double (Nat.zero_lt_succ width)
      have lower : 0 ≤ lowBits value (width + 1) := Int.emod_nonneg _ (by omega)
      have upper : lowBits value (width + 1) < (1 <<< (width + 1) : Nat) :=
        Int.emod_lt_of_pos _ (by omega)
      rw [bitOf_top (Nat.zero_lt_succ width) lower upper, Nat.succ_sub_one, Int.bmod]
      simp only [decide_eq_true_eq]
      change _ = if lowBits value (width + 1) < _ then lowBits value (width + 1)
        else lowBits value (width + 1) - _
      split <;> split <;> omega

theorem toSigned_eq (value : Int) (width : Nat) :
    toSigned value width = value.bmod (1 <<< width) :=
  lowBits_signed value width

example : toSigned 0xFFFFFE 24 = -2 := by decide
example : toSigned (-129) 8 = 127 := by decide

namespace Word

/-- The low 32 bits of an integer. -/
def ofInt (value : Int) : Word :=
  ⟨⟨(value % 0x100000000).toNat, by omega⟩⟩

theorem ofInt_eq (value : Int) : ofInt value = BitVec.ofInt 32 value := by
  apply BitVec.eq_of_toNat_eq
  rw [BitVec.toNat_ofInt]
  rfl

theorem toNat_ofInt (value : Int) :
    ((ofInt value).toNat : Int) = value % 0x100000000 := by
  change ((value % 0x100000000).toNat : Int) = _
  omega

@[inline] def toInt (word : Word) : Int :=
  word.toNat

@[simp] theorem ofInt_toInt (word : Word) : ofInt word.toInt = word := by
  apply BitVec.eq_of_toNat_eq
  have bound := word.isLt
  have value := toNat_ofInt word.toInt
  simp only [toInt] at value ⊢
  omega

/-- The number held in the `width` bits from bit `low` upwards. -/
@[inline] def field (word : Word) (low width : Nat) : Nat :=
  word.toNat / (1 <<< low) % (1 <<< width)

@[inline] def bit (word : Word) (index : Nat) : Bool :=
  word.field index 1 == 1

theorem field_lt (word : Word) (low width : Nat) :
    word.field low width < 1 <<< width :=
  Nat.mod_lt _ (one_shiftLeft_pos width)

example : field 0xE3A00005 28 4 = 14 := by decide

/-- The low `width` bits of `value` as a word, with copies of the highest of them in every
bit above. -/
def signExtend (value : Int) (width : Nat) : Word :=
  let field := lowBits value width
  let extended := if bitOf field (width - 1) then field - (1 <<< width : Nat) else field
  ofInt extended

theorem signExtend_eq_ofInt (value : Int) (width : Nat) :
    signExtend value width = ofInt (value.bmod (1 <<< width)) :=
  congrArg ofInt (lowBits_signed value width)

example : signExtend 0x80 8 = 0xFFFFFF80 := by decide

/-- Rotation to the right of the low 32 bits of `value`: what a shift to the right drops
enters at the top. The amount counts modulo 32, so a negative amount rotates to the left. -/
def rotateRight (value amount : Int) : Word :=
  let amount := (amount % 32).toNat
  let word := (ofInt value).toNat
  ofInt (word >>> amount ||| word <<< (32 - amount) : Nat)

theorem rotateRight_eq (value amount : Int) :
    rotateRight value amount = BitVec.rotateRight (ofInt value) (amount % 32).toNat := by
  have small : (amount % 32).toNat % 32 = (amount % 32).toNat := by omega
  have dropped : (ofInt value).toNat >>> (amount % 32).toNat < 2 ^ 32 := by
    rw [Nat.shiftRight_eq_div_pow]
    exact Nat.lt_of_le_of_lt (Nat.div_le_self _ _) (ofInt value).isLt
  apply BitVec.eq_of_toNat_eq
  rw [rotateRight, ofInt_eq, BitVec.ofInt_natCast, BitVec.toNat_ofNat, Nat.or_mod_two_pow,
    Nat.mod_eq_of_lt dropped, BitVec.rotateRight_def, BitVec.toNat_or, BitVec.toNat_ushiftRight,
    BitVec.toNat_shiftLeft, small]

example : rotateRight 1 4 = 0x10000000 := by decide
example : rotateRight 1 (-1) = 2 := by decide

end Word

end Arm32
