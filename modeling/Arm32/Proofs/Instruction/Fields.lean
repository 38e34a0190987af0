import Arm32.Instruction.WellFormed
import Arm32.Numeral
import Arm32.Register

namespace Arm32

/-! The fields of well-formed instructions: registers that exist, and amounts and
offsets that have room in a word. -/

theorem IsRegister.eq_number {number : Int} (names : IsRegister number) :
    ∃ register : Register, number = register.number := by
  have bound : number.toNat < 16 := by
    have := names.2
    omega
  refine ⟨⟨number.toNat, bound⟩, ?_⟩
  have nonnegative := names.1
  simp only [Register.number]
  omega

theorem isRegister_number (register : Register) : IsRegister register.number := by
  have bound := register.bound
  simp only [IsRegister, Register.number]
  omega

theorem IsRegister.fitsDecimal {number : Int} (names : IsRegister number) :
    Numeral.FitsDecimal number :=
  Numeral.fitsDecimal_of_word names.1 (by have := names.2; omega)

theorem Register.ne_programCounter {register : Register} (general : register.val < 15) :
    register ≠ programCounter := by
  rintro rfl
  exact absurd general (by decide)

theorem Fits.fitsDecimal {width : Nat} {value : Int} (narrow : width ≤ 32)
    (fits : Fits width value) : Numeral.FitsDecimal value := by
  have narrower : (1 <<< width : Nat) ≤ 1 <<< 32 := by
    rw [Nat.one_shiftLeft, Nat.one_shiftLeft]
    exact Nat.pow_le_pow_right (by decide) narrow
  have word : (1 <<< 32 : Nat) = 0x100000000 := by decide
  have below := fits.2
  exact Numeral.fitsDecimal_of_word fits.1 (by omega)

theorem Fits.nonneg {width : Nat} {value : Int} (fits : Fits width value) : 0 ≤ value :=
  fits.1

theorem RotatedByte.nonneg {value rotation : Int} {carry : Bool}
    (rotated : RotatedByte value carry rotation) : 0 ≤ value := by
  rcases rotated with ⟨-, -, -, byte, -, rfl⟩
  exact Int.natCast_nonneg _

theorem RotatedByte.fitsDecimal {value rotation : Int} {carry : Bool}
    (rotated : RotatedByte value carry rotation) : Numeral.FitsDecimal value := by
  rcases rotated.2.2.2 with ⟨byte, -, rfl⟩
  exact Word.fitsDecimal_toInt _

theorem Offset.FitsShort.fitsLong {offset : Offset} (fits : offset.FitsShort) :
    offset.FitsLong := by
  cases offset with
  | immediate value =>
      have bounds := fits
      simp only [Offset.FitsShort, Offset.FitsLong, Fits, Nat.reduceShiftLeft] at bounds ⊢
      omega
  | register number kind amount =>
      rcases fits with ⟨names, -, rfl⟩
      exact ⟨names, by decide⟩

namespace Transfer.WellFormed

variable {transfer : Transfer} {long : Bool}

theorem valueNames (wellFormed : transfer.WellFormed long) : IsRegister transfer.valueRegister :=
  wellFormed.1

theorem baseNames (wellFormed : transfer.WellFormed long) : IsRegister transfer.baseRegister :=
  wellFormed.2.1

/-- What has room in a short field has room in a long one. -/
theorem offsetFits (wellFormed : transfer.WellFormed long) : transfer.offset.FitsLong := by
  have fits := wellFormed.2.2.2
  cases long with
  | true => exact fits
  | false => exact Offset.FitsShort.fitsLong fits

end Transfer.WellFormed

end Arm32
