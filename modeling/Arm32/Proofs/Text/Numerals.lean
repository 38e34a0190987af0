import Arm32.Numeral
import Arm32.Proofs.Text.Lexemes

namespace Arm32.Numeral

/-! Numerals read back. The numerals of a style without a plus sign and without
capitals are words, and a number that is not negative is the value of its
numeral, whatever the style. -/

/-- The value of a lower-case figure. -/
def figureValue (figure : Char) : Nat :=
  if figure.isDigit then figure.toNat - '0'.toNat else figure.toNat - 'a'.toNat + 10

def figuresValue (base : Nat) (figures : List Char) : Nat :=
  figures.foldl (fun value figure => base * value + figureValue figure) 0

/-- The value of a numeral; one without the mark of base sixteen is decimal. -/
def value : List Char → Nat
  | '0' :: 'x' :: figures => figuresValue 16 figures
  | figures => figuresValue 10 figures

/-- Styles whose numerals say what their base is and are made of figures alone. -/
structure Style.Plain (style : Style) : Prop where
  lowerCase : style.upperCase = false
  unsigned : style.plusSign = false
  marked : style.base = 10 ∧ style.baseMark = false ∨ style.base = 16 ∧ style.baseMark = true

theorem Style.decimal_plain : decimal.Plain :=
  ⟨rfl, rfl, .inl ⟨rfl, rfl⟩⟩

theorem Style.hexadecimal_plain : hexadecimal.Plain :=
  ⟨rfl, rfl, .inr ⟨rfl, rfl⟩⟩

theorem Style.address_plain : address.Plain :=
  ⟨rfl, rfl, .inr ⟨rfl, rfl⟩⟩

/-! ## Figures -/

theorem figureValue_digitChar : ∀ digit < 16, figureValue (Nat.digitChar digit) = digit := by
  decide

theorem isAlphanum_digitChar : ∀ digit < 16, (Nat.digitChar digit).isAlphanum = true := by
  decide

theorem figuresValue_append (base : Nat) (figures : List Char) (last : Char) :
    figuresValue base (figures ++ [last]) =
      base * figuresValue base figures + figureValue last := by
  simp [figuresValue]

theorem figuresValue_zeros (base count : Nat) (figures : List Char) :
    figuresValue base (List.replicate count '0' ++ figures) = figuresValue base figures := by
  have zero : figureValue '0' = 0 := by decide
  induction count with
  | zero => rfl
  | succ count same =>
      rw [← same]
      simp [figuresValue, List.replicate_succ, zero]

variable {base : Nat}

theorem mem_toDigits (positive : 1 < base) {number : Nat} {figure : Char}
    (among : figure ∈ Nat.toDigits base number) :
    ∃ digit, digit < base ∧ figure = Nat.digitChar digit := by
  induction number using Nat.strongRecOn with
  | ind number earlier =>
      rw [Nat.toDigits_eq_if positive] at among
      split at among
      · exact ⟨number, ‹_›, List.mem_singleton.mp among⟩
      · rcases List.mem_append.mp among with inFront | isLast
        · exact earlier _ (Nat.div_lt_self (by omega) positive) inFront
        · exact ⟨number % base, Nat.mod_lt _ (by omega), List.mem_singleton.mp isLast⟩

theorem figuresValue_toDigits (positive : 1 < base) (small : base ≤ 16) (number : Nat) :
    figuresValue base (Nat.toDigits base number) = number := by
  induction number using Nat.strongRecOn with
  | ind number earlier =>
      rw [Nat.toDigits_eq_if positive]
      split
      case isTrue below =>
        simp [figuresValue, figureValue_digitChar number (by omega)]
      case isFalse notBelow =>
        have lastBelow : number % base < base := Nat.mod_lt _ (by omega)
        rw [figuresValue_append, earlier _ (Nat.div_lt_self (by omega) positive),
          figureValue_digitChar _ (by omega)]
        exact Nat.div_add_mod number base

/-! ## Numerals -/

namespace Style.Plain

variable {style : Style} (plain : style.Plain)

include plain

theorem base_bounds : 1 < style.base ∧ style.base ≤ 16 := by
  rcases plain.marked with ⟨base, -⟩ | ⟨base, -⟩ <;> omega

theorem characters_of_nonneg {number : Int} (nonnegative : 0 ≤ number) :
    ∃ zeros, characters style number =
      Numeral.baseMark style ++
        (List.replicate zeros '0' ++ Nat.toDigits style.base number.natAbs) := by
  have notNegative : ¬ number < 0 := by omega
  refine ⟨style.width - (Numeral.baseMark style).length -
    (Nat.toDigits style.base number.natAbs).length, ?_⟩
  simp [characters, sign, digits, notNegative, plain.unsigned, plain.lowerCase]

theorem figures_alphanum (zeros number : Nat) :
    (List.replicate zeros '0' ++ Nat.toDigits style.base number).all Char.isAlphanum = true := by
  have bounds := plain.base_bounds
  rw [List.all_eq_true]
  intro figure among
  rcases List.mem_append.mp among with isZero | isDigit
  · rw [List.eq_of_mem_replicate isZero]
    decide
  · rcases mem_toDigits bounds.1 isDigit with ⟨digit, below, rfl⟩
    exact isAlphanum_digitChar digit (by omega)

theorem isWord {number : Int} (nonnegative : 0 ≤ number) :
    IsWord (characters style number) := by
  rcases plain.characters_of_nonneg nonnegative with ⟨zeros, written⟩
  have mark : (Numeral.baseMark style).all Char.isAlphanum = true := by
    unfold Numeral.baseMark
    split <;> decide
  have nonempty := Nat.length_toDigits_pos (b := style.base) (n := number.natAbs)
  rw [written]
  refine ⟨fun empty => ?_, by rw [List.all_append, mark, plain.figures_alphanum]; rfl⟩
  have length := congrArg List.length empty
  simp only [List.length_append, List.length_nil] at length
  omega

omit plain in
/-- A figure is never mistaken for the mark of a base. -/
theorem value_of_digits {figures : List Char} (digits : ∀ figure ∈ figures, figure.isDigit = true) :
    value figures = figuresValue 10 figures := by
  unfold value
  split
  · have notDigit := digits 'x' (by simp)
    contradiction
  · rfl

theorem value_characters {number : Int} (nonnegative : 0 ≤ number) :
    (value (characters style number) : Int) = number := by
  rcases plain.characters_of_nonneg nonnegative with ⟨zeros, written⟩
  rw [written]
  rcases plain.marked with ⟨base, mark⟩ | ⟨base, mark⟩
  · have digits : ∀ figure ∈ List.replicate zeros '0' ++ Nat.toDigits 10 number.natAbs,
        figure.isDigit = true := by
      intro figure among
      rcases List.mem_append.mp among with isZero | isDigit
      · rw [List.eq_of_mem_replicate isZero]
        decide
      · exact Nat.isDigit_of_mem_toDigits (by decide) (by decide) isDigit
    simp only [base, Numeral.baseMark, mark, Bool.false_eq_true, if_false, List.nil_append]
    rw [value_of_digits digits, figuresValue_zeros,
      figuresValue_toDigits (by decide) (by decide)]
    omega
  · simp only [base, Numeral.baseMark, mark, if_true, List.cons_append, List.nil_append, value]
    rw [figuresValue_zeros, figuresValue_toDigits (by decide) (by decide)]
    omega

end Style.Plain

theorem characters_signedHexadecimal (number : Int) :
    characters .signedHexadecimal number =
      (if number < 0 then '-' else '+') :: characters .hexadecimal number.natAbs := by
  have nonnegative : ¬ (number.natAbs : Int) < 0 := by omega
  have magnitude : (number.natAbs : Int).natAbs = number.natAbs := by omega
  simp only [characters, sign, Style.signedHexadecimal, Style.hexadecimal, nonnegative,
    Nat.zero_sub, List.replicate_zero, if_false, magnitude]
  split <;> rfl

/-- An address is written with eight figures at least. -/
theorem write_address (number : Nat) :
    write .address number = "0x" ++ String.ofList ((Nat.toDigits 16 number).leftpad 8 '0') := by
  have nonnegative : ¬ (number : Int) < 0 := by omega
  have written : characters .address number =
      ['0', 'x'] ++ (Nat.toDigits 16 number).leftpad 8 '0' := by
    simp only [characters, sign, digits, Style.address, if_neg nonnegative, Int.natAbs_natCast]
    rfl
  rw [write, written, String.ofList_append]

end Arm32.Numeral
