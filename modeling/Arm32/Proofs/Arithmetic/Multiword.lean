import Arm32.Proofs.Arithmetic.Exactness
import Mathlib.Data.Nat.Digits.Lemmas
import Mathlib.Tactic.Ring

namespace Arm32

/-! Numbers of several words, the least significant word first. They are added word by
word, each addition taking the carry that the one before has left. -/

/-- The number that words spell. -/
def unsignedOf (words : List Word) : Nat :=
  Nat.ofDigits 0x100000000 (words.map BitVec.toNat)

/-- The number that words spell in two's complement. -/
def signedOf (words : List Word) : Int :=
  toSigned (unsignedOf words) (32 * words.length)

/-- Two's complement of this width has room for the value. -/
def FitsSigned (width : Nat) (value : Int) : Prop :=
  -(2 ^ (width - 1)) ≤ value ∧ value < 2 ^ (width - 1)

instance (width : Nat) (value : Int) : Decidable (FitsSigned width value) :=
  inferInstanceAs (Decidable (_ ∧ _))

example : unsignedOf [0xFFFFFFFF, 1] = 0x1FFFFFFFF := by decide
example : signedOf [0xFFFFFFFE, 0xFFFFFFFF] = -2 := by decide

/-! ## Words one by one -/

theorem unsignedOf_cons (word : Word) (words : List Word) :
    unsignedOf (word :: words) = word.toNat + 0x100000000 * unsignedOf words :=
  Nat.ofDigits_cons

theorem signedOf_singleton (word : Word) : signedOf [word] = BitVec.toInt word := by
  rw [signedOf, toSigned_eq, unsignedOf_cons, BitVec.toInt_eq_toNat_bmod]
  rfl

/-- A further word below does not change how the words above it are read. -/
theorem bmod_append {digit : Nat} (small : digit < 0x100000000) (value : Int) {half : Nat}
    (positive : 0 < half) :
    (digit + 0x100000000 * value).bmod (0x100000000 * (2 * half)) =
      digit + 0x100000000 * value.bmod (2 * half) := by
  have modulus : 0 < 2 * half := by omega
  have low := value.le_bmod modulus
  have high := value.bmod_lt modulus
  have split : digit + 0x100000000 * value =
      digit + 0x100000000 * value.bmod (2 * half) +
        (0x100000000 * (2 * half) : Nat) * value.bdiv (2 * half) := by
    conv_lhs => rw [← value.bmod_add_bdiv (2 * half)]
    push_cast
    ring
  rw [split, Int.add_mul_bmod_self_left]
  apply Int.bmod_eq_of_le_mul_two
  · push_cast at low ⊢
    omega
  · push_cast at high ⊢
    omega

theorem signedOf_cons (word : Word) {words : List Word} (more : words ≠ []) :
    signedOf (word :: words) = word.toNat + 0x100000000 * signedOf words := by
  rcases List.exists_cons_of_ne_nil more with ⟨next, rest, rfl⟩
  have all : 1 <<< (32 * (rest.length + 1 + 1)) =
      0x100000000 * (2 * 2 ^ (32 * rest.length + 31)) := by
    rw [Nat.one_shiftLeft]
    ring
  have above : 1 <<< (32 * (rest.length + 1)) = 2 * 2 ^ (32 * rest.length + 31) := by
    rw [Nat.one_shiftLeft]
    ring
  rw [signedOf, signedOf, unsignedOf_cons, toSigned_eq, toSigned_eq, List.length_cons,
    List.length_cons, all, above, ← bmod_append word.isLt _ (Nat.two_pow_pos _)]
  push_cast
  rfl

theorem fitsSigned_append {digit : Nat} (small : digit < 0x100000000) (value : Int) {width : Nat}
    (positive : 0 < width) :
    FitsSigned (32 + width) (digit + 0x100000000 * value) ↔ FitsSigned width value := by
  have limit : (2 : Int) ^ (32 + width - 1) = 0x100000000 * 2 ^ (width - 1) := by
    rw [Nat.add_sub_assoc positive, pow_add]
    rfl
  rw [FitsSigned, FitsSigned, limit]
  omega

theorem fitsSigned_word (value : Int) :
    FitsSigned 32 value ↔ -0x80000000 ≤ value ∧ value < 0x80000000 := by
  norm_num [FitsSigned]

/-! ## Sums -/

theorem toInt_flag (flag : Bool) : flag.toInt = flag.toNat := by
  cases flag <;> rfl

namespace Calculation

/-- The sums of pairs of words, and the flags that the last one leaves. -/
def ripple (flags : Flags) : List (Word × Word) → List Word × Flags
  | [] => ([], flags)
  | (first, second) :: rest =>
      let sums := ripple (sumWithCarry.flags first second flags.carry) rest
      (sumWithCarry.result first second flags.carry :: sums.1, sums.2)

@[simp] theorem length_ripple (flags : Flags) (pairs : List (Word × Word)) :
    (ripple flags pairs).1.length = pairs.length := by
  induction pairs generalizing flags with
  | nil => rfl
  | cons pair rest induction => exact congrArg (· + 1) (induction _)

/-- What a word has no room for is carried. -/
theorem result_add_carry (first second : Word) (carryIn : Bool) :
    (sumWithCarry.result first second carryIn).toNat +
        0x100000000 * (sumWithCarry.carries first second carryIn).toNat =
      first.toNat + second.toNat + carryIn.toNat := by
  have firstBound := first.isLt
  have secondBound := second.isLt
  have reduced := sumWithCarry.toInt_result first second carryIn
  have carryInBound := carryIn.toNat_le
  rw [carries]
  simp only [exact, Word.toInt, toInt_flag] at reduced ⊢
  by_cases carried : (0x100000000 : Int) ≤ first.toNat + second.toNat + carryIn.toNat
  · rw [decide_eq_true carried, Bool.toNat_true]
    omega
  · rw [decide_eq_false carried, Bool.toNat_false]
    omega

/-- The lowest sum stays below, and its carry enters the sum of what lies above. -/
theorem result_add_above (first second : Word) (carryIn : Bool) (firstAbove secondAbove : Int) :
    (first.toNat + 0x100000000 * firstAbove) + (second.toNat + 0x100000000 * secondAbove) +
        carryIn.toInt =
      (sumWithCarry.result first second carryIn).toNat +
        0x100000000 * (firstAbove + secondAbove +
          (sumWithCarry.carries first second carryIn).toInt) := by
  have lowest := result_add_carry first second carryIn
  rw [toInt_flag, toInt_flag]
  omega

/-- The sums spell the sum, and the last carry is what they have no room for. -/
theorem unsignedOf_ripple (flags : Flags) (pairs : List (Word × Word)) :
    unsignedOf (ripple flags pairs).1 +
        (ripple flags pairs).2.carry.toNat * 2 ^ (32 * pairs.length) =
      unsignedOf (pairs.map Prod.fst) + unsignedOf (pairs.map Prod.snd) + flags.carry.toNat := by
  induction pairs generalizing flags with
  | nil => exact congrArg (unsignedOf [] + ·) (Nat.mul_one _)
  | cons pair rest induction =>
      have lowest := result_add_carry pair.1 pair.2 flags.carry
      have higher := induction (sumWithCarry.flags pair.1 pair.2 flags.carry)
      have power : 2 ^ (32 * (rest.length + 1)) = 0x100000000 * 2 ^ (32 * rest.length) := by ring
      rw [carry_flags] at higher
      rw [ripple, List.map_cons, List.map_cons, List.length_cons, unsignedOf_cons, unsignedOf_cons,
        unsignedOf_cons, power]
      linarith

/-- The last overflow tells that the sum of the numbers has no room. -/
theorem overflow_ripple (flags : Flags) {pairs : List (Word × Word)} (some : pairs ≠ []) :
    (ripple flags pairs).2.overflow = true ↔
      ¬ FitsSigned (32 * pairs.length)
        (signedOf (pairs.map Prod.fst) + signedOf (pairs.map Prod.snd) + flags.carry.toInt) := by
  induction pairs generalizing flags with
  | nil => exact absurd rfl some
  | cons pair rest induction =>
      by_cases last : rest = []
      · subst last
        rw [List.map_cons, List.map_cons, List.map_nil, List.map_nil, signedOf_singleton,
          signedOf_singleton, List.length_singleton, fitsSigned_word]
        exact overflows_iff .sumWithCarry pair.1 pair.2 flags.carry
      · have small := (sumWithCarry.result pair.1 pair.2 flags.carry).isLt
        have firsts : rest.map Prod.fst ≠ [] := fun none => last (List.map_eq_nil_iff.mp none)
        have seconds : rest.map Prod.snd ≠ [] := fun none => last (List.map_eq_nil_iff.mp none)
        have room : 0 < 32 * rest.length := by
          have := List.length_pos_of_ne_nil last
          omega
        have width : 32 * (rest.length + 1) = 32 + 32 * rest.length := by ring
        rw [ripple, induction _ last, List.map_cons, List.map_cons, signedOf_cons _ firsts,
          signedOf_cons _ seconds, List.length_cons, width, result_add_above,
          fitsSigned_append small _ room, carry_flags]

end Calculation

end Arm32
