import Arm32.Proofs.Assembly.Reading
import Arm32.Proofs.Execution.Transfers

namespace Arm32

/-! Shifts in texts. Who shifts a register by hand as the text of an instruction says
comes to what the processor does, save that a right shift that is shown as one by no bits
is one by 32. -/

/-! ## Shifts by an encoded amount -/

inductive ShiftPlace where
  | operand
  | offset
deriving DecidableEq, Repr

/-- A register that an instruction shifts by an amount of its own. -/
structure EncodedShift where
  place : ShiftPlace
  register : Int
  kind : ShiftKind
  amount : Int
deriving DecidableEq, Repr

def Operand.encodedShift? : Operand → Option EncodedShift
  | .register number kind (.immediate amount) => some ⟨.operand, number, kind, amount⟩
  | .register _ _ (.register _) | .immediate _ _ _ => none

def Offset.encodedShift? : Offset → Option EncodedShift
  | .register number kind amount => some ⟨.offset, number, kind, amount⟩
  | .immediate _ => none

def Operation.encodedShift? : Operation → Option EncodedShift
  | .combine _ _ _ operand _ | .compare _ operand | .move _ _ operand _ => operand.encodedShift?
  | .load _ transfer | .store _ transfer => transfer.offset.encodedShift?
  | _ => none

namespace EncodedShift

variable {shift : EncodedShift}

structure WellFormed (shift : EncodedShift) : Prop where
  names : IsRegister shift.register
  fits : Fits 5 shift.amount

theorem wellFormed_of_operand {operand : Operand} (wellFormed : operand.WellFormed)
    (encodes : operand.encodedShift? = some shift) : shift.WellFormed := by
  match operand, wellFormed with
  | .register number kind (.immediate amount), ⟨names, fits⟩ =>
      cases encodes
      exact ⟨names, fits⟩
  | .register _ _ (.register _), _ | .immediate _ _ _, _ => cases encodes

theorem wellFormed_of_offset {offset : Offset} (fits : offset.FitsLong)
    (encodes : offset.encodedShift? = some shift) : shift.WellFormed := by
  match offset, fits with
  | .register number kind amount, ⟨names, fits⟩ =>
      cases encodes
      exact ⟨names, fits⟩
  | .immediate _, _ => cases encodes

theorem wellFormed_of_operation {operation : Operation} (wellFormed : operation.WellFormed)
    (encodes : operation.encodedShift? = some shift) : shift.WellFormed := by
  cases operation with
  | combine => exact wellFormed_of_operand wellFormed.2.2 encodes
  | compare => exact wellFormed_of_operand wellFormed.2 encodes
  | move => exact wellFormed_of_operand wellFormed.2 encodes
  | load => exact wellFormed_of_offset wellFormed.offsetFits encodes
  | store => exact wellFormed_of_offset wellFormed.offsetFits encodes
  | _ => cases encodes

end EncodedShift

namespace Assembly

open Lexeme

/-! ## Shifts that are read -/

/-- What a text says is to be done with a register. -/
inductive ShownShift where
  | none
  | bits (kind : ShiftKind) (amount : Int)
  | throughCarry
deriving DecidableEq, Repr

namespace ShownShift

/-- The first shift by a number of bits, or through the carry. -/
def find : List Lexeme → ShownShift
  | [] => .none
  | .mark _ :: rest => find rest
  | .word letters :: rest =>
      if letters = ['r', 'r', 'x'] then .throughCarry
      else
        match readShiftKind letters, rest with
        | some kind, .mark ' ' :: .mark '#' :: .word amount :: _ =>
            .bits kind (Numeral.value amount)
        | _, _ => find rest

/-- The shift behind the title of a line. -/
def ofText (text : String) : ShownShift :=
  find (cut text.toList).tail

example : ofText "LDRB r1, [r2, -r3, asr #12]!" = .bits .arithmeticRight 12 := by decide

/-- Shifts a word by hand. -/
def apply (shift : ShownShift) (word : Word) (carryIn : Bool) : Except Misuse Shifter.Output :=
  match shift with
  | .none => .ok ⟨word.toInt, carryIn⟩
  | .bits kind amount => Shifter.shift kind word.toInt amount carryIn
  | .throughCarry => .ok (Shifter.rotateRightExtended word.toInt carryIn)

/-- The shift that is meant, where no bits may stand for 32. -/
def meant : ShownShift → ShownShift
  | .bits kind amount => .bits kind (Shifter.encodedAmount kind amount)
  | .none => .none
  | .throughCarry => .throughCarry

@[simp] theorem find_registerText (register : Register) (rest : List Lexeme) :
    find (.word (registerText register).toList :: rest) = find rest := by
  have notExtended : (registerText register).toList ≠ ['r', 'r', 'x'] := by decide +revert
  have notKind : readShiftKind (registerText register).toList = Option.none := by decide +revert
  simp [find, notExtended, notKind]

@[simp] theorem find_mark (character : Char) (rest : List Lexeme) :
    find (.mark character :: rest) = find rest := rfl

@[simp] theorem find_throughCarry (rest : List Lexeme) :
    find (.word ['r', 'r', 'x'] :: rest) = .throughCarry := rfl

@[simp] theorem find_bits (kind : ShiftKind) (amount : List Char) (rest : List Lexeme) :
    find (.word kind.mnemonic.toList :: .mark ' ' :: .mark '#' :: .word amount :: rest) =
      .bits kind (Numeral.value amount) := by
  cases kind <;> rfl

theorem apply_bits (kind : ShiftKind) {amount : Int} (nonnegative : 0 ≤ amount) (word : Word)
    (carryIn : Bool) :
    (bits kind amount).apply word carryIn =
      .ok (Shifter.outcome kind word.toInt amount.toNat carryIn) := by
  rw [apply, Shifter.shift_of_nonneg kind _ _ nonnegative, word.toInt_emod]

end ShownShift

end Assembly

/-- The shift that the text of an instruction shows. -/
def EncodedShift.shown (shift : EncodedShift) : Assembly.ShownShift :=
  if shift.amount = 0 ∧ shift.kind = .logicalLeft then .none
  else if shift.amount = 0 ∧ shift.kind = .rotateRight ∧ shift.place = .operand then .throughCarry
  else .bits shift.kind shift.amount

namespace Assembly

open Lexeme

variable {shift : EncodedShift}

/-! ## Shifts that are written -/

/-- What is written for an operand shows its shift. -/
theorem operandArgument_shows {operand : Operand} (wellFormed : operand.WellFormed)
    (encodes : operand.encodedShift? = some shift) :
    ∃ argument, operandArgument operand = .ok argument ∧
      ShownShift.find (cut argument.text.toList) = shift.shown := by
  match operand, wellFormed with
  | .immediate _ _ _, _ | .register _ _ (.register _), _ => cases encodes
  | .register number kind (.immediate amount), ⟨names, fits⟩ =>
      cases encodes
      rcases names.eq_number with ⟨register, rfl⟩
      have nonnegative := fits.nonneg
      refine ⟨_, operandArgument_register register kind (fits.fitsDecimal (by decide)), ?_⟩
      split
      case isTrue unshifted => simp [Argument.text, EncodedShift.shown, unshifted, ShownShift.find]
      case isFalse unshifted =>
        split
        case isTrue extended =>
          have rrx : cut ['r', 'r', 'x'] = [.word ['r', 'r', 'x']] := by decide
          simp [Argument.text, EncodedShift.shown, extended, rrx]
        case isFalse extended =>
          simp [Argument.text, EncodedShift.shown, unshifted, extended, cut_shift kind nonnegative,
            Numeral.Style.decimal_plain.value_characters nonnegative]

/-- What is written for an offset shows its shift, whatever comes after it. -/
theorem offsetTerm_shows (sign : OffsetSign) {offset : Offset} (fits : offset.FitsLong)
    (encodes : offset.encodedShift? = some shift) :
    ∃ term, offsetTerm sign offset = .ok term ∧
      ∀ back, ShownShift.find back = .none →
        ShownShift.find (cut term.text.toList ++ back) = shift.shown := by
  match offset, fits with
  | .immediate _, _ => cases encodes
  | .register number kind amount, ⟨names, amountFits⟩ =>
      cases encodes
      rcases names.eq_number with ⟨register, rfl⟩
      have nonnegative := amountFits.nonneg
      have written := offsetTerm_register sign register kind (amountFits.fitsDecimal (by decide))
      refine ⟨_, written, fun back silent => ?_⟩
      split
      case isTrue unshifted =>
        cases sign <;>
          simp [OffsetTerm.text, signText, EncodedShift.shown, unshifted, silent]
      case isFalse unshifted =>
        cases sign <;>
          simp [OffsetTerm.text, signText, EncodedShift.shown, unshifted,
            cut_shift kind nonnegative, Numeral.Style.decimal_plain.value_characters nonnegative]

theorem addressArgument_shows {transfer : Transfer} {long : Bool}
    (wellFormed : transfer.WellFormed long)
    (encodes : transfer.offset.encodedShift? = some shift) :
    ∃ argument, addressArgument transfer = .ok argument ∧
      ShownShift.find (cut argument.text.toList) = shift.shown := by
  rcases offsetTerm_shows transfer.sign wellFormed.offsetFits encodes with ⟨term, written, shows⟩
  rcases wellFormed.baseNames.eq_number with ⟨base, baseIs⟩
  have notSilent : ¬ (transfer.offset = .immediate 0 ∧ transfer.indexing = .before) := by
    rintro ⟨zero, -⟩
    rw [zero] at encodes
    cases encodes
  refine ⟨_, addressArgument_offset baseIs written notSilent, ?_⟩
  cases transfer.indexing with
  | before =>
      cases transfer.writeBack <;>
        simp [Argument.text, writeBackText, shows [.mark ']'] rfl, shows [.mark ']', .mark '!'] rfl]
  | after =>
      -- Nothing comes after the offset.
      have last := shows [] rfl
      rw [List.append_nil] at last
      simp [Argument.text, last]

/-- An instruction is written as a line that shows a shift behind its title. -/
def Shows (address? : Option Int) (instruction : Instruction) (shift : ShownShift) : Prop :=
  ∃ (heading : Heading) (arguments : List Argument),
    line instruction address? =
      .ok (.instruction heading.mnemonic heading.setsFlags instruction.condition arguments) ∧
    ShownShift.find (argumentLexemes arguments) = shift

theorem Shows.ofText_text {address? : Option Int} {instruction : Instruction} {shown : ShownShift}
    (shows : Shows address? instruction shown) :
    ∃ text, instruction.text address? = .ok text ∧ ShownShift.ofText text = shown := by
  rcases shows with ⟨heading, arguments, written, found⟩
  rcases cut_text written with ⟨text, hasText, lexemes⟩
  refine ⟨text, hasText, ?_⟩
  rw [ShownShift.ofText, lexemes, List.tail_cons, ShownShift.find_mark, found]

/-- Loads and stores show their shifts alike. -/
theorem transferArguments_shows {transfer : Transfer} {long : Bool}
    (wellFormed : transfer.WellFormed long)
    (encodes : transfer.offset.encodedShift? = some shift) :
    ∃ arguments, transferArguments transfer = .ok arguments ∧
      ShownShift.find (argumentLexemes arguments) = shift.shown := by
  rcases wellFormed.valueNames.eq_number with ⟨register, valueIs⟩
  rcases addressArgument_shows wellFormed encodes with ⟨argument, written, shows⟩
  refine ⟨[.register register, argument], ?_, ?_⟩
  · simp only [transferArguments, registerArgument, valueIs, namedRegister_number, written]
    rfl
  · simp [shows]

theorem line_shows {instruction : Instruction} (wellFormed : instruction.WellFormed)
    (encodes : instruction.operation.encodedShift? = some shift) (address? : Option Int) :
    Shows address? instruction shift.shown := by
  rcases instruction with ⟨condition, operation⟩
  cases operation with
  | combine operator destination source operand setsFlags =>
      rcases wellFormed with ⟨destinationNames, sourceNames, operandFits⟩
      rcases destinationNames.eq_number with ⟨destination, rfl⟩
      rcases sourceNames.eq_number with ⟨source, rfl⟩
      rcases operandArgument_shows operandFits encodes with ⟨argument, written, shows⟩
      refine ⟨.combine operator setsFlags, [.register destination, .register source, argument],
        ?_, ?_⟩
      · simp only [line, registerArgument, namedRegister_number, written]
        rfl
      · simp [shows]
  | compare source operand =>
      rcases wellFormed with ⟨sourceNames, operandFits⟩
      rcases sourceNames.eq_number with ⟨source, rfl⟩
      rcases operandArgument_shows operandFits encodes with ⟨argument, written, shows⟩
      refine ⟨.compare, [.register source, argument], ?_, ?_⟩
      · simp only [line, registerArgument, namedRegister_number, written]
        rfl
      · simp [shows]
  | move inverted destination operand setsFlags =>
      rcases wellFormed with ⟨destinationNames, operandFits⟩
      rcases destinationNames.eq_number with ⟨destination, rfl⟩
      rcases operandArgument_shows operandFits encodes with ⟨argument, written, shows⟩
      refine ⟨.move inverted setsFlags, [.register destination, argument], ?_, ?_⟩
      · simp only [line, registerArgument, namedRegister_number, written]
        rfl
      · simp [shows]
  | load size transfer =>
      rcases transferArguments_shows wellFormed encodes with ⟨arguments, written, shows⟩
      refine ⟨.load size, arguments, ?_, shows⟩
      simp only [line, written]
      rfl
  | store size transfer =>
      rcases transferArguments_shows wellFormed encodes with ⟨arguments, written, shows⟩
      refine ⟨.store size, arguments, ?_, shows⟩
      simp only [line, written]
      rfl
  | _ => cases encodes

end Assembly

namespace EncodedShift

open Assembly

/-! ## Shifts that are made -/

variable {shift : EncodedShift} {machine : Machine}

/-- A shift that is read gives what the next instruction uses. An offset has no use for
a carry. -/
def Agrees (shift : EncodedShift) (machine : Machine) (read : ShownShift) : Prop :=
  ∃ output,
    read.apply (machine.sourceValue shift.register) machine.flags.carry = .ok output ∧
    match shift.place with
    | .operand =>
        (Action.operand (.register shift.register shift.kind (.immediate shift.amount))).run
          machine.advance = .ok output machine.advance
    | .offset =>
        (Action.offsetValue (.register shift.register shift.kind shift.amount)).run
          machine.advance = .ok output.value machine.advance

/-- A right shift by all the bits of a word, which is encoded as one by none. -/
def IsWholeRight (shift : EncodedShift) : Prop :=
  shift.amount = 0 ∧ (shift.kind = .logicalRight ∨ shift.kind = .arithmeticRight)

/-- The outcome of a shift in its place. -/
def made (shift : EncodedShift) (word : Word) (carryIn : Bool) : Shifter.Output :=
  if shift.amount = 0 ∧ shift.kind = .rotateRight ∧ shift.place = .operand then
    Shifter.rotateRightExtended word.toInt carryIn
  else
    Shifter.outcome shift.kind word.toInt (Shifter.encodedAmount shift.kind shift.amount).toNat
      carryIn

theorem run_operand_made (wellFormed : shift.WellFormed) (inOperand : shift.place = .operand) :
    (Action.operand (.register shift.register shift.kind (.immediate shift.amount))).run
        machine.advance =
      .ok (shift.made (machine.sourceValue shift.register) machine.flags.carry)
        machine.advance := by
  have operandFits : Operand.WellFormed (.register shift.register shift.kind
      (.immediate shift.amount)) := ⟨wellFormed.names, wellFormed.fits⟩
  rw [Action.run_operand operandFits, Machine.operandOutput, Machine.shifted,
    Machine.valueOf_advance wellFormed.names, made]
  simp only [inOperand, and_true]
  rfl

theorem run_offsetValue_made (wellFormed : shift.WellFormed) (inOffset : shift.place = .offset) :
    (Action.offsetValue (.register shift.register shift.kind shift.amount)).run
        machine.advance =
      .ok (shift.made (machine.sourceValue shift.register) machine.flags.carry).value
        machine.advance := by
  have offsetFits : Offset.FitsLong (.register shift.register shift.kind shift.amount) :=
    ⟨wellFormed.names, wellFormed.fits⟩
  have notOperand : ¬ (shift.amount = 0 ∧ shift.kind = .rotateRight ∧ shift.place = .operand) := by
    simp [inOffset]
  rw [Action.run_offsetValue offsetFits, Machine.offsetValue, Machine.shifted,
    Machine.valueOf_advance wellFormed.names, made, if_neg notOperand]
  rfl

/-- Only the carry of an offset is free. -/
theorem agrees_iff (wellFormed : shift.WellFormed) (read : ShownShift) :
    shift.Agrees machine read ↔
      ∃ output,
        read.apply (machine.sourceValue shift.register) machine.flags.carry = .ok output ∧
        match shift.place with
        | .operand => output = shift.made (machine.sourceValue shift.register) machine.flags.carry
        | .offset => output.value =
            (shift.made (machine.sourceValue shift.register) machine.flags.carry).value := by
  apply exists_congr
  intro output
  apply and_congr_right
  intro applied
  cases place : shift.place with
  | operand =>
      dsimp only
      rw [run_operand_made wellFormed place]
      simp [eq_comm]
  | offset =>
      dsimp only
      rw [run_offsetValue_made wellFormed place]
      simp [eq_comm]

theorem apply_meant (wellFormed : shift.WellFormed) (word : Word) (carryIn : Bool) :
    shift.shown.meant.apply word carryIn = .ok (shift.made word carryIn) := by
  have nonnegative := Shifter.encodedAmount_nonneg shift.kind wellFormed.fits.nonneg
  rw [shown, made]
  split
  case isTrue unshifted =>
    have notRotated :
        ¬ (shift.amount = 0 ∧ shift.kind = .rotateRight ∧ shift.place = .operand) := by
      simp [unshifted]
    rw [if_neg notRotated, unshifted.1, unshifted.2]
    rfl
  case isFalse =>
    split
    case isTrue => rfl
    case isFalse => exact ShownShift.apply_bits shift.kind nonnegative word carryIn

theorem agrees_meant (wellFormed : shift.WellFormed) (machine : Machine) :
    shift.Agrees machine shift.shown.meant := by
  apply (agrees_iff wellFormed _).mpr
  refine ⟨_, apply_meant wellFormed _ _, ?_⟩
  cases shift.place with
  | operand => rfl
  | offset => rfl

theorem agrees_shown (wellFormed : shift.WellFormed) (notWhole : ¬ shift.IsWholeRight)
    (machine : Machine) :
    shift.Agrees machine shift.shown := by
  have meant := agrees_meant wellFormed machine
  rcases shift with ⟨place, register, kind, amount⟩
  by_cases none : amount = 0
  · subst none
    cases kind with
    | logicalLeft => exact meant
    | logicalRight => exact absurd ⟨rfl, .inl rfl⟩ notWhole
    | arithmeticRight => exact absurd ⟨rfl, .inr rfl⟩ notWhole
    | rotateRight =>
        cases place with
        | operand => exact meant
        | offset =>
            -- Rotations by 0 and by 32 differ in the carry only.
            apply (agrees_iff wellFormed _).mpr
            exact ⟨_, ShownShift.apply_bits .rotateRight (Int.le_refl 0) _ _,
              (Shifter.rotateRight_whole _ machine.flags.carry).symm⟩
  · have same : Shifter.encodedAmount kind amount = amount := by simp [Shifter.encodedAmount, none]
    simp only [shown, none, false_and, if_false, ShownShift.meant, same] at meant ⊢
    exact meant

/-- A machine whose registers no right shift by a whole word leaves as they are. -/
def ones : Machine :=
  { memory := .zeros 0, registers := Vector.replicate 16 1 }

theorem ones_shifted (register : Register) {kind : ShiftKind}
    (right : kind = .logicalRight ∨ kind = .arithmeticRight) :
    (ones.sourceValue register.number).toInt ≠
      (Shifter.outcome kind (ones.sourceValue register.number).toInt 32 false).value := by
  rcases right with rfl | rfl
  · decide +revert
  · decide +revert

/-- No bits are shown, and all of them are meant. -/
theorem shown_of_isWholeRight (whole : shift.IsWholeRight) : shift.shown = .bits shift.kind 0 := by
  rcases shift with ⟨place, register, kind, amount⟩
  rcases whole with ⟨rfl, rfl | rfl⟩
  · rfl
  · rfl

theorem made_of_isWholeRight (whole : shift.IsWholeRight) (word : Word) (carryIn : Bool) :
    shift.made word carryIn = Shifter.outcome shift.kind word.toInt 32 carryIn := by
  rcases shift with ⟨place, register, kind, amount⟩
  rcases whole with ⟨rfl, rfl | rfl⟩
  · rfl
  · rfl

theorem not_agrees_shown (wellFormed : shift.WellFormed) (whole : shift.IsWholeRight) :
    ¬ shift.Agrees ones shift.shown := by
  rcases wellFormed.names.eq_number with ⟨register, named⟩
  rw [agrees_iff wellFormed, shown_of_isWholeRight whole, made_of_isWholeRight whole,
    ShownShift.apply_bits _ (Int.le_refl 0), Int.toNat_zero, Shifter.outcome_zero, named]
  rintro ⟨output, applied, agrees⟩
  injection applied with unmoved
  have moved : output.value = (Shifter.outcome shift.kind (ones.sourceValue register.number).toInt
      32 ones.flags.carry).value := by
    cases place : shift.place with
    | operand =>
        rw [place] at agrees
        exact congrArg Shifter.Output.value agrees
    | offset =>
        rw [place] at agrees
        exact agrees
  rw [← unmoved] at moved
  exact ones_shifted register whole.2 moved

end EncodedShift

namespace Assembly

/-! ## Texts taken literally -/

/-- A shift that is read off a text is the one that is made, once the right shifts by no
bits that are shown are taken for shifts by 32. Taken literally, the text is right in
every state of the machine but for these. -/
theorem shownShift_agrees_iff {value : Int} {instruction : Instruction} {shift : EncodedShift}
    (decoded : Instruction.decode value = .ok instruction)
    (encodes : instruction.operation.encodedShift? = some shift) (address? : Option Int) :
    ∃ text, instruction.text address? = .ok text ∧
      (∀ machine, shift.Agrees machine (ShownShift.ofText text).meant) ∧
      ((∀ machine, shift.Agrees machine (ShownShift.ofText text)) ↔ ¬ shift.IsWholeRight) ∧
      (shift.IsWholeRight → ShownShift.ofText text = .bits shift.kind 0) := by
  have wellFormed := Instruction.wellFormed_of_decode decoded
  have shiftFits := EncodedShift.wellFormed_of_operation wellFormed encodes
  rcases (line_shows wellFormed encodes address?).ofText_text with ⟨text, hasText, shows⟩
  refine ⟨text, hasText, ?_⟩
  rw [shows]
  refine ⟨EncodedShift.agrees_meant shiftFits, ⟨?_, EncodedShift.agrees_shown shiftFits⟩,
    EncodedShift.shown_of_isWholeRight⟩
  intro agrees whole
  exact EncodedShift.not_agrees_shown shiftFits whole (agrees _)

/-- A rotation through the carry is shown as it is made. -/
theorem shownShift_agrees_throughCarry :
    Instruction.text ⟨.always, .move false 0 (.register 1 .rotateRight (.immediate 0)) true⟩ none =
        .ok "MOVS r0, r1, rrx" ∧
      ∀ machine, EncodedShift.Agrees ⟨.operand, 1, .rotateRight, 0⟩ machine
        (ShownShift.ofText "MOVS r0, r1, rrx") := by
  have decoded : Instruction.decode 0xE1B00061 =
      .ok ⟨.always, .move false 0 (.register 1 .rotateRight (.immediate 0)) true⟩ := rfl
  have written : Instruction.text ⟨.always, .move false 0 (.register 1 .rotateRight
      (.immediate 0)) true⟩ none = .ok "MOVS r0, r1, rrx" := rfl
  rcases shownShift_agrees_iff decoded rfl none with ⟨text, hasText, -, agrees, -⟩
  injection written.symm.trans hasText with same
  subst same
  refine ⟨written, agrees.mpr ?_⟩
  rintro ⟨-, right | right⟩
  · cases right
  · cases right

/-- A right shift that moves all bits out of a word is shown as one by no bits. -/
theorem shownShift_literal_fails :
    ¬ ∀ (machine : Machine) (value : Int) (instruction : Instruction) (shift : EncodedShift)
        (address? : Option Int) (text : String),
      Instruction.decode value = .ok instruction →
      instruction.operation.encodedShift? = some shift →
      instruction.text address? = .ok text →
      shift.Agrees machine (ShownShift.ofText text) := by
  intro literal
  have written : Instruction.text ⟨.always, .move false 0 (.register 1 .logicalRight
      (.immediate 0)) false⟩ none = .ok "MOV r0, r1, lsr #0" := rfl
  have shown : ShownShift.ofText "MOV r0, r1, lsr #0" = .bits .logicalRight 0 := by decide
  let machine : Machine :=
    { memory := .zeros 8, registers := (Vector.replicate 16 0).setIfInBounds 1 1 }
  have agrees := literal machine 0xE1A00021 _ _ none _ rfl rfl written
  rw [shown] at agrees
  rcases agrees with ⟨output, applied, performed⟩
  have unmoved : ShownShift.apply (.bits .logicalRight 0) (machine.sourceValue 1) false =
      .ok ⟨1, false⟩ := rfl
  have moved : (Action.operand (.register 1 .logicalRight (.immediate 0))).run machine.advance =
      .ok (Shifter.logicalRight 1 32 false) machine.advance := rfl
  injection unmoved.symm.trans applied with asRead
  injection moved.symm.trans performed with asMade
  exact absurd (asRead.trans asMade.symm) (by decide)

end Assembly

end Arm32
