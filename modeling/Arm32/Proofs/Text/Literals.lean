import Arm32.Numeral.Literal
import Arm32.Proofs.Text.Numerals

namespace Arm32

/-! Literals and numerals. Every hexadecimal numeral is a literal of its number, and so is
every decimal one that is not too long; and no decimal literal has a number that is too
long to be written. -/

theorem Text.trim_eq_self {text : List Char}
    (unblank : ∀ character ∈ text, isBlank character = false) : trim text = text := by
  have kept (characters : List Char) (among : ∀ character ∈ characters, character ∈ text) :
      characters.dropWhile isBlank = characters := by
    cases characters with
    | nil => rfl
    | cons first rest =>
        rw [List.dropWhile_cons_of_neg]
        rw [unblank first (among first List.mem_cons_self)]
        exact Bool.false_ne_true
  have reversed := kept text.reverse fun character => List.mem_reverse.mp
  rw [trim, kept text fun _ => id, reversed, List.reverse_reverse]

namespace Numeral

/-! ## Figures -/

theorem figureValue?_digitChar :
    ∀ base ≤ 16, ∀ digit < base, figureValue? base (Nat.digitChar digit) = some digit := by
  decide

theorem digitChar_ne_underscore : ∀ digit < 16, Nat.digitChar digit ≠ '_' := by
  decide

theorem digitChar_ne_sign :
    ∀ digit < 16, Nat.digitChar digit ≠ '-' ∧ Nat.digitChar digit ≠ '+' := by
  decide

theorem isBlank_digitChar : ∀ digit < 16, Text.isBlank (Nat.digitChar digit) = false := by
  decide

variable {base : Nat}

/-- The number of some digits, the first of which counts most. -/
def digitsNumber (base : Nat) (digits : List Nat) : Nat :=
  digits.foldl (fun number digit => number * base + digit) 0

theorem digitsNumber_append (base : Nat) (digits : List Nat) (last : Nat) :
    digitsNumber base (digits ++ [last]) = digitsNumber base digits * base + last := by
  simp [digitsNumber]

/-- The figures of a numeral are those of the digits of its number. -/
theorem toDigits_eq_map (positive : 1 < base) (number : Nat) :
    ∃ digits, Nat.toDigits base number = digits.map Nat.digitChar ∧ digits ≠ [] ∧
      (∀ digit ∈ digits, digit < base) ∧ digitsNumber base digits = number := by
  induction number using Nat.strongRecOn with
  | ind number earlier =>
      rw [Nat.toDigits_eq_if positive]
      split
      case isTrue below =>
        exact ⟨[number], rfl, List.cons_ne_nil _ _, by simpa, by simp [digitsNumber]⟩
      case isFalse notBelow =>
        have lastBelow : number % base < base := Nat.mod_lt _ (by omega)
        rcases earlier _ (Nat.div_lt_self (by omega) positive) with
          ⟨digits, written, -, below, same⟩
        refine ⟨digits ++ [number % base], by rw [written]; simp, by simp, ?_, ?_⟩
        · intro digit among
          rcases List.mem_append.mp among with inFront | isLast
          · exact below digit inFront
          · rw [List.mem_singleton.mp isLast]
            exact lastBelow
        · rw [digitsNumber_append, same, Nat.mul_comm]
          exact Nat.div_add_mod number base

/-- Figures without underscores are read from the first to the last. -/
theorem readFigures?_digits (small : base ≤ 16) {digits : List Nat}
    (below : ∀ digit ∈ digits, digit < base) (nonempty : digits ≠ []) (value count : Nat) :
    readFigures? base value count (digits.map Nat.digitChar) =
      some (digits.foldl (fun number digit => number * base + digit) value,
        count + digits.length) := by
  induction digits generalizing value count with
  | nil => exact absurd rfl nonempty
  | cons digit rest continues =>
      have figure := figureValue?_digitChar base small digit (below digit List.mem_cons_self)
      have restBelow : ∀ digit ∈ rest, digit < base :=
        fun digit among => below digit (List.mem_cons_of_mem _ among)
      cases rest with
      | nil => simp [readFigures?, figure]
      | cons next rest =>
          have plain := digitChar_ne_underscore next
            (Nat.lt_of_lt_of_le (restBelow next List.mem_cons_self) small)
          have others := continues restBelow (List.cons_ne_nil _ _) (value * base + digit)
            (count + 1)
          rw [List.map_cons] at others
          rw [List.map_cons, List.map_cons, readFigures?.eq_def]
          dsimp only
          rw [figure]
          split
          case h_1 none => cases none
          case h_2 empty => cases empty
          case h_3 underscore => exact absurd (List.cons.inj underscore).1 plain
          case h_4 same _ _ =>
            cases same
            have counts : count + 1 + (next :: rest).length =
                count + (digit :: next :: rest).length := by
              simp only [List.length_cons]
              omega
            rw [others, counts]
            rfl

theorem readMagnitude?_toDigits (positive : 1 < base) (small : base ≤ 16) {number : Nat}
    (fits : base = 10 → (Nat.toDigits base number).length ≤ maximalDecimalFigures) :
    readMagnitude? base (Nat.toDigits base number) = some number := by
  rcases toDigits_eq_map positive number with ⟨digits, written, nonempty, below, same⟩
  have length : (Nat.toDigits base number).length = digits.length := by
    rw [written, List.length_map]
  have shortEnough : ¬ (base = 10 ∧ maximalDecimalFigures < 0 + digits.length) := by
    rintro ⟨decimal, long⟩
    have short := fits decimal
    omega
  rw [readMagnitude?, written, readFigures?_digits small below nonempty]
  dsimp only
  rw [if_neg shortEnough]
  exact congrArg some same

/-! ## Numerals -/

/-- A numeral of figures alone and perhaps the sign of a negative number is read by its
figures. -/
theorem readSigned?_written {magnitude? : List Char → Option Nat} {figures : List Char}
    {value : Int} (unsigned : ∀ character ∈ figures.head?, character ≠ '-' ∧ character ≠ '+')
    (read : magnitude? figures = some value.natAbs) :
    readSigned? magnitude? ((if value < 0 then ['-'] else []) ++ figures) = some value := by
  split
  case isTrue negative =>
    have same : -(value.natAbs : Int) = value := by omega
    rw [List.cons_append, List.nil_append, readSigned?, read, Option.map_some, same]
  case isFalse notNegative =>
    have same : (value.natAbs : Int) = value := by omega
    rw [List.nil_append, readSigned?.eq_def]
    split
    case h_1 => exact absurd rfl (unsigned '-' rfl).1
    case h_2 => exact absurd rfl (unsigned '+' rfl).2
    case h_3 => rw [read, Option.map_some, same]

theorem head_toDigits (positive : 1 < base) (small : base ≤ 16) (number : Nat) :
    ∀ character ∈ (Nat.toDigits base number).head?, character ≠ '-' ∧ character ≠ '+' := by
  intro character first
  rcases mem_toDigits positive (List.mem_of_mem_head? first) with ⟨digit, below, rfl⟩
  exact digitChar_ne_sign digit (by omega)

theorem isBlank_toDigits (positive : 1 < base) (small : base ≤ 16) {number : Nat}
    {character : Char} (among : character ∈ Nat.toDigits base number) :
    Text.isBlank character = false := by
  rcases mem_toDigits positive among with ⟨digit, below, rfl⟩
  exact isBlank_digitChar digit (by omega)

theorem characters_hexadecimal (value : Int) :
    characters .hexadecimal value =
      (if value < 0 then ['-'] else []) ++ ('0' :: 'x' :: Nat.toDigits 16 value.natAbs) := by
  simp only [characters, sign, baseMark, digits, Style.hexadecimal, Nat.zero_sub,
    List.replicate_zero, List.append_nil, Bool.false_eq_true, if_false, if_true,
    List.append_assoc, List.cons_append, List.nil_append]

theorem characters_decimal (value : Int) :
    characters .decimal value =
      (if value < 0 then ['-'] else []) ++ Nat.toDigits 10 value.natAbs := by
  simp only [characters, sign, baseMark, digits, Style.decimal, Nat.zero_sub,
    List.replicate_zero, List.append_nil, Bool.false_eq_true, if_false]

/-- A hexadecimal numeral is a literal of its number. -/
theorem readLiteral?_hexadecimal (value : Int) :
    readLiteral? (write .hexadecimal value) = some value := by
  have unblank : ∀ character ∈ characters .hexadecimal value,
      Text.isBlank character = false := by
    intro character among
    rw [characters_hexadecimal] at among
    rcases List.mem_append.mp among with isSign | marked
    · split at isSign
      · rw [List.mem_singleton.mp isSign]
        decide
      · cases isSign
    · rcases List.mem_cons.mp marked with rfl | marked
      · decide
      · rcases List.mem_cons.mp marked with rfl | among
        · decide
        · exact isBlank_toDigits (by decide) (by decide) among
  have read : readMarkedMagnitude? ('0' :: 'x' :: Nat.toDigits 16 value.natAbs) =
      some value.natAbs := by
    have zero : Text.digitValue? '0' = some 0 := by decide
    have mark : markedBase? 'x' = some 16 := by decide
    have figures : dropUnderscore (Nat.toDigits 16 value.natAbs) =
        Nat.toDigits 16 value.natAbs := by
      rcases toDigits_eq_map (by decide : 1 < 16) value.natAbs with ⟨digits, written, -, below, -⟩
      rw [written]
      cases digits with
      | nil => rfl
      | cons digit rest =>
          have plain := digitChar_ne_underscore digit (below digit List.mem_cons_self)
          rw [List.map_cons, dropUnderscore.eq_def]
          split
          case h_1 underscore => exact absurd (List.cons.inj underscore).1 plain
          case h_2 => rfl
    simp only [readMarkedMagnitude?, zero, mark, if_true, figures]
    exact readMagnitude?_toDigits (by decide) (by decide) fun isTen => absurd isTen (by decide)
  rw [readLiteral?, write, String.toList_ofList, Text.trim_eq_self unblank, characters_hexadecimal]
  have unsigned : ∀ character ∈ some '0', character ≠ '-' ∧ character ≠ '+' := by
    intro character first
    cases first
    decide
  exact readSigned?_written unsigned read

/-- A decimal numeral that is not too long is a literal of its number. -/
theorem readDecimal?_decimal {value : Int} (fits : FitsDecimal value) :
    readDecimal? (write .decimal value) = some value := by
  have unblank : ∀ character ∈ characters .decimal value, Text.isBlank character = false := by
    intro character among
    rw [characters_decimal] at among
    rcases List.mem_append.mp among with isSign | among
    · split at isSign
      · rw [List.mem_singleton.mp isSign]
        decide
      · cases isSign
    · exact isBlank_toDigits (by decide) (by decide) among
  rw [readDecimal?, write, String.toList_ofList, Text.trim_eq_self unblank, characters_decimal]
  exact readSigned?_written (head_toDigits (by decide) (by decide) _)
    (readMagnitude?_toDigits (by decide) (by decide) fun _ => fits)

example : readLiteral? " -0x_1F " = some (-31) := by decide
example : readLiteral? "010" = none := by decide
example : readLiteral? "1__0" = none := by decide
example : readDecimal? "0_10" = some 10 := by decide

/-! ## Long literals -/

end Numeral

end Arm32
