import Arm32.Proofs.Decoding.Image
import Arm32.Register

namespace Arm32.Instruction

/-! Words put together from templates. A template is a word whose places for registers
are empty, and registers are put there by a bitwise or. Encoding adds its fields up, and
comes to the same word. -/

/-- With twelve bits at each end, and registers at bits 19 to 16 and 15 to 12, nothing
touches. -/
theorem or_registers (top : Nat) (upper lower : Register) {low : Nat} (room : low < 1 <<< 12) :
    top <<< 20 ||| upper.val <<< 16 ||| lower.val <<< 12 ||| low =
      top <<< 20 + (upper.val <<< 16 + (lower.val <<< 12 + low)) := by
  have upperBound := upper.isLt
  have lowerBound := lower.isLt
  rw [Nat.shiftLeft_add_eq_or_of_lt (i := 20) (by omega) top,
    Nat.shiftLeft_add_eq_or_of_lt (i := 16) (by omega) upper.val,
    Nat.shiftLeft_add_eq_or_of_lt (i := 12) room lower.val, Nat.or_assoc, Nat.or_assoc]

/-- A number with the bits of an encoding stands for the instruction. -/
theorem decode_of_encode {instruction : Instruction} {word : Nat}
    (wellFormed : instruction.WellFormed) (bits : instruction.encode.toNat = word) :
    decode word = .ok instruction := by
  rw [← bits]
  exact decode_toInt_eq_ok_iff.mpr (ofWord_encode wellFormed)

end Arm32.Instruction
