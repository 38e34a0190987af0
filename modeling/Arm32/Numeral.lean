namespace Arm32

/-! Numerals as reports and assembly text write them. One function writes every
numeral; a style says in which base, with which marks and how wide. -/

namespace Numeral

/-- How a number is written. The width counts the sign and the base mark, and
is reached by zeros after them. -/
structure Style where
  base : Nat
  upperCase : Bool := false
  baseMark : Bool := false
  plusSign : Bool := false
  width : Nat := 0

namespace Style

def decimal : Style := { base := 10 }

def hexadecimal : Style := { base := 16, baseMark := true }

def signedHexadecimal : Style := { base := 16, baseMark := true, plusSign := true }

/-- Addresses in messages: eight lower-case digits after the mark. -/
def address : Style := { base := 16, baseMark := true, width := 10 }

/-- Words in listings: eight upper-case digits. -/
def word : Style := { base := 16, upperCase := true, width := 8 }

/-- Small codes in messages: as few upper-case digits as possible. -/
def code : Style := { base := 16, upperCase := true }

end Style

def digits (style : Style) (magnitude : Nat) : List Char :=
  let lower := Nat.toDigits style.base magnitude
  if style.upperCase then lower.map Char.toUpper else lower

def sign (style : Style) (value : Int) : List Char :=
  if value < 0 then ['-'] else if style.plusSign then ['+'] else []

def baseMark (style : Style) : List Char :=
  if style.baseMark then ['0', 'x'] else []

def characters (style : Style) (value : Int) : List Char :=
  let lead := sign style value ++ baseMark style
  let figures := digits style value.natAbs
  lead ++ List.replicate (style.width - lead.length - figures.length) '0' ++ figures

def write (style : Style) (value : Int) : String :=
  String.ofList (characters style value)

/-! ## Decimal numerals -/

/-- The most figures that a decimal numeral may have. Longer ones are neither read nor
written. -/
def maximalDecimalFigures : Nat := 4300

/-- An integer whose decimal numeral is not too long. A sign does not count. -/
def FitsDecimal (value : Int) : Prop :=
  (digits .decimal value.natAbs).length ≤ maximalDecimalFigures

instance (value : Int) : Decidable (FitsDecimal value) :=
  inferInstanceAs (Decidable (_ ≤ _))

theorem powTen_le_powTen {few many : Nat} (fewer : few ≤ many) :
    Nat.pow 10 few ≤ Nat.pow 10 many :=
  Nat.pow_le_pow_right (by decide) fewer

theorem length_digits_decimal_le_iff {magnitude figures : Nat} (some : 0 < figures) :
    (digits .decimal magnitude).length ≤ figures ↔ magnitude < Nat.pow 10 figures :=
  Nat.length_toDigits_le_iff (by decide) some

theorem fitsDecimal_iff {value : Int} :
    FitsDecimal value ↔ value.natAbs < Nat.pow 10 maximalDecimalFigures :=
  length_digits_decimal_le_iff (by decide)

theorem fitsDecimal_of_word {value : Int} (lower : 0 ≤ value) (upper : value < 0x100000000) :
    FitsDecimal value := by
  have larger : Nat.pow 10 10 ≤ Nat.pow 10 maximalDecimalFigures :=
    powTen_le_powTen (by decide)
  have room : value.natAbs < Nat.pow 10 10 := by
    rw [show Nat.pow 10 10 = 10000000000 by decide]
    omega
  exact fitsDecimal_iff.mpr (Nat.lt_of_lt_of_le room larger)

/-- The least magnitude with too many figures is a power of ten. -/
theorem not_fitsDecimal_pow {figures : Nat} (tooMany : maximalDecimalFigures ≤ figures) :
    ¬ FitsDecimal (Nat.pow 10 figures : Nat) ∧ ¬ FitsDecimal (-(Nat.pow 10 figures : Nat)) := by
  have large : ¬ Nat.pow 10 figures < Nat.pow 10 maximalDecimalFigures :=
    Nat.not_lt.mpr (powTen_le_powTen tooMany)
  rw [fitsDecimal_iff, fitsDecimal_iff, Int.natAbs_neg, Int.natAbs_natCast]
  exact ⟨large, large⟩

/-- An integer that can be written in decimal. -/
structure Decimal where
  value : Int
  fits : FitsDecimal value
deriving DecidableEq, Repr

def Decimal.text (decimal : Decimal) : String :=
  write .decimal decimal.value

end Numeral

end Arm32
