import Arm32.Instruction.WellFormed
import Arm32.Proofs.Assembly.Lines
import Arm32.Proofs.Assembly.Titles
import Arm32.Proofs.Instruction.Fields
import Arm32.Proofs.Text.Numerals

namespace Arm32

/-! Assembly text read back. The text of a well-formed instruction holds all of
the instruction but a few fields, and a reader of texts recovers the rest. -/

/-! ## What a text shows -/

/-- The carry and the rotation of an immediate are not shown. -/
def Operand.shown : Operand → Operand
  | .immediate value _ _ => .immediate value false 0
  | .register number kind amount => .register number kind amount

/-- The sign of an offset of zero is not shown before the access. -/
def Transfer.shown (transfer : Transfer) : Transfer :=
  if transfer.offset = .immediate 0 ∧ transfer.indexing = .before then
    { transfer with sign := .plus }
  else transfer

def Operation.shown : Operation → Operation
  | .combine operator destination source operand setsFlags =>
      .combine operator destination source operand.shown setsFlags
  | .compare source operand => .compare source operand.shown
  | .move inverted destination operand setsFlags =>
      .move inverted destination operand.shown setsFlags
  | .load size transfer => .load size transfer.shown
  | .store size transfer => .store size transfer.shown
  | .moveHalf half destination immediate => .moveHalf half destination immediate
  | .branch offset link => .branch offset link
  | .branchExchange register => .branchExchange register
  | .supervisorCall immediate => .supervisorCall immediate
  | .undefined => .undefined

def Instruction.shown (instruction : Instruction) : Instruction :=
  { instruction with operation := instruction.operation.shown }

namespace Assembly

open Lexeme

/-! ## Readers -/

def readRegister (letters : List Char) : Option Int :=
  ((List.finRange 16).find? fun register => (registerText register).toList = letters).map
    Register.number

def readShiftKind (letters : List Char) : Option ShiftKind :=
  [.logicalLeft, .logicalRight, .arithmeticRight, .rotateRight].find?
    fun kind : ShiftKind => kind.mnemonic.toList = letters

/-- A register without a shift is shifted to the left by zero. -/
def readOperand : List Lexeme → Option Operand
  | [.mark '#', .word value] => some (.immediate (Numeral.value value) false 0)
  | [.word name] => do return .register (← readRegister name) .logicalLeft (.immediate 0)
  | [.word name, .mark ',', .mark ' ', .word ['r', 'r', 'x']] => do
      return .register (← readRegister name) .rotateRight (.immediate 0)
  | [.word name, .mark ',', .mark ' ', .word kind, .mark ' ', .word amount] => do
      return .register (← readRegister name) (← readShiftKind kind)
        (.register (← readRegister amount))
  | [.word name, .mark ',', .mark ' ', .word kind, .mark ' ', .mark '#', .word amount] => do
      return .register (← readRegister name) (← readShiftKind kind)
        (.immediate (Numeral.value amount))
  | _ => none

def readRegisterOffset (sign : OffsetSign) : List Lexeme → Option (OffsetSign × Offset)
  | [.word name] => do return (sign, .register (← readRegister name) .logicalLeft 0)
  | [.word name, .mark ',', .mark ' ', .word kind, .mark ' ', .mark '#', .word amount] => do
      return (sign, .register (← readRegister name) (← readShiftKind kind) (Numeral.value amount))
  | _ => none

def readOffset : List Lexeme → Option (OffsetSign × Offset)
  | [.mark '#', .word value] => some (.plus, .immediate (Numeral.value value))
  | [.mark '#', .mark '-', .word value] => some (.minus, .immediate (Numeral.value value))
  | .mark '-' :: rest => readRegisterOffset .minus rest
  | rest => readRegisterOffset .plus rest

def isInside : Lexeme → Bool
  | .mark ']' => false
  | _ => true

/-- The address of a transfer whose value has been read. -/
def readAddress (valueRegister : Int) : List Lexeme → Option Transfer
  | .mark '[' :: .word name :: .mark ']' :: .mark ',' :: .mark ' ' :: rest => do
      let baseRegister ← readRegister name
      let (sign, offset) ← readOffset rest
      return { indexing := .after, writeBack := true, sign, valueRegister, baseRegister, offset }
  | .mark '[' :: .word name :: .mark ']' :: rest => do
      let baseRegister ← readRegister name
      return { indexing := .before, writeBack := rest = [.mark '!'], sign := .plus, valueRegister,
               baseRegister, offset := .immediate 0 }
  | .mark '[' :: .word name :: .mark ',' :: .mark ' ' :: rest => do
      let baseRegister ← readRegister name
      let (sign, offset) ← readOffset (rest.takeWhile isInside)
      return { indexing := .before, writeBack := rest.dropWhile isInside = [.mark ']', .mark '!'],
               sign, valueRegister, baseRegister, offset }
  | _ => none

/-- The offset of a branch. A target is an address modulo the size of the address
space, and the branch itself is less than half of it away. -/
def readBranch (address? : Option Int) (lexemes : List Lexeme) : Option Int :=
  match address?, lexemes with
  | some address, [.word target] => some (toSigned (Numeral.value target - address) 32)
  | none, [.mark '+', .word distance] => some (Numeral.value distance)
  | none, [.mark '-', .word distance] => some (-Numeral.value distance)
  | _, _ => none

def readOperation (address? : Option Int) (heading : Heading) (lexemes : List Lexeme) :
    Option Operation :=
  match heading, lexemes with
  | .combine operator setsFlags, .word destination :: .mark ',' :: .mark ' ' :: .word source ::
      .mark ',' :: .mark ' ' :: operand => do
      return .combine operator (← readRegister destination) (← readRegister source)
        (← readOperand operand) setsFlags
  | .compare, .word source :: .mark ',' :: .mark ' ' :: operand => do
      return .compare (← readRegister source) (← readOperand operand)
  | .move inverted setsFlags, .word destination :: .mark ',' :: .mark ' ' :: operand => do
      return .move inverted (← readRegister destination) (← readOperand operand) setsFlags
  | .moveHalf half, [.word destination, .mark ',', .mark ' ', .mark '#', .word immediate] => do
      return .moveHalf half (← readRegister destination) (Numeral.value immediate)
  | .branch link, offset => do return .branch (← readBranch address? offset) link
  | .branchExchange, [.word register] => do return .branchExchange (← readRegister register)
  | .load size, .word value :: .mark ',' :: .mark ' ' :: address => do
      return .load size (← readAddress (← readRegister value) address)
  | .store size, .word value :: .mark ',' :: .mark ' ' :: address => do
      return .store size (← readAddress (← readRegister value) address)
  | .supervisorCall, [.mark '#', .word immediate] =>
      some (.supervisorCall (Numeral.value immediate))
  | _, _ => none

/-- Reads the text of an instruction whose address is known or not. -/
def read (address? : Option Int) (text : String) : Option Instruction :=
  match cut text.toList with
  | .word title :: .mark ' ' :: arguments => do
      let (heading, condition) ← readTitle title
      return ⟨condition, ← readOperation address? heading arguments⟩
  | _ => none

example : read none "LDRBEQ r1, [sp, -r2, lsl #3]!" =
    some ⟨.equal, .load .byte ⟨.before, true, .minus, 1, 13, .register 2 .logicalLeft 3⟩⟩ := by
  decide

/-! ## Words -/

@[simp] theorem readRegister_registerText (register : Register) :
    readRegister (registerText register).toList = some register.number := by
  decide +revert

@[simp] theorem cut_registerText (register : Register) :
    cut (registerText register).toList = [.word (registerText register).toList] := by
  have isWord : IsWord (registerText register).toList := by decide +revert
  exact cut_isWord isWord

@[simp] theorem readShiftKind_mnemonic (kind : ShiftKind) :
    readShiftKind kind.mnemonic.toList = some kind := by
  cases kind <;> decide

@[simp] theorem cut_mnemonic (kind : ShiftKind) :
    cut kind.mnemonic.toList = [.word kind.mnemonic.toList] := by
  cases kind <;> decide

theorem cut_numeral {style : Numeral.Style} (plain : style.Plain) {value : Int}
    (nonnegative : 0 ≤ value) :
    cut (Numeral.characters style value) = [.word (Numeral.characters style value)] :=
  cut_isWord (plain.isWord nonnegative)

theorem cut_shift (kind : ShiftKind) {amount : Int} (nonnegative : 0 ≤ amount) :
    cut (shiftText kind amount).toList =
      [.word kind.mnemonic.toList, .mark ' ', .mark '#',
        .word (Numeral.characters .decimal amount)] := by
  simp [shiftText, Numeral.write, cut_numeral Numeral.Style.decimal_plain nonnegative]

/-- The style of an immediate depends on how large it is. -/
theorem immediateText_toList (value : Int) :
    ∃ style : Numeral.Style, style.Plain ∧
      (immediateText value).toList = '#' :: Numeral.characters style value := by
  refine ⟨if value < 10 then .decimal else .hexadecimal, ?_, ?_⟩
  · split
    · exact Numeral.Style.decimal_plain
    · exact Numeral.Style.hexadecimal_plain
  · simp [immediateText, Numeral.write]

@[simp] theorem namedRegister_number (register : Register) :
    namedRegister register.number = .ok register := by
  rw [namedRegister, named?_number]

/-! ## Operands -/

/-- What is written for a register that is shifted by an encoded amount. -/
theorem operandArgument_register (register : Register) (kind : ShiftKind) {amount : Int}
    (fits : Numeral.FitsDecimal amount) :
    operandArgument (.register register.number kind (.immediate amount)) =
      .ok (if amount = 0 ∧ kind = .logicalLeft then .register register
        else if amount = 0 ∧ kind = .rotateRight then .rotatedThroughCarry register
        else .shifted register kind amount) := by
  rw [operandArgument, namedRegister_number, decimalNumber_of_fits fits, apply_ite Except.ok,
    apply_ite Except.ok]
  rfl

theorem operandArgument_immediate {value rotation : Int} {carry : Bool}
    (rotated : RotatedByte value carry rotation) :
    operandArgument (.immediate value carry rotation) = .ok (.immediate value) := by
  rw [operandArgument, decimalNumber_of_fits rotated.fitsDecimal, ite_self]
  rfl

/-- What is written for an operand reads as that operand. -/
theorem operandArgument_reads {operand : Operand} (wellFormed : operand.WellFormed) :
    ∃ argument, operandArgument operand = .ok argument ∧
      readOperand (cut argument.text.toList) = some operand.shown := by
  match operand, wellFormed with
  | .immediate value carry rotation, rotated =>
      rcases immediateText_toList value with ⟨style, plain, written⟩
      have nonnegative := rotated.nonneg
      refine ⟨_, operandArgument_immediate rotated, ?_⟩
      simp [Argument.text, written, cut_numeral plain nonnegative, readOperand,
        plain.value_characters nonnegative, Operand.shown]
  | .register number kind (.immediate amount), ⟨names, fits⟩ =>
      rcases names.eq_number with ⟨register, rfl⟩
      have nonnegative := fits.nonneg
      refine ⟨_, operandArgument_register register kind (fits.fitsDecimal (by decide)), ?_⟩
      split
      case isTrue unshifted => simp [Argument.text, readOperand, Operand.shown, unshifted]
      case isFalse =>
        split
        case isTrue extended =>
          have rrx : cut ['r', 'r', 'x'] = [.word ['r', 'r', 'x']] := by decide
          simp [Argument.text, rrx, readOperand, Operand.shown, extended]
        case isFalse =>
          simp [Argument.text, cut_shift kind nonnegative, readOperand,
            Numeral.Style.decimal_plain.value_characters nonnegative, Operand.shown]
  | .register number kind (.register amountNumber), ⟨names, amountNames⟩ =>
      rcases names.eq_number with ⟨register, rfl⟩
      rcases IsRegister.eq_number amountNames with ⟨amount, rfl⟩
      have written : operandArgument (.register register.number kind (.register amount.number)) =
          .ok (.shiftedBy register kind amount) := by
        rw [operandArgument, namedRegister_number, namedRegister_number]
        rfl
      exact ⟨_, written, by simp [Argument.text, readOperand, Operand.shown]⟩

/-! ## Addresses -/

theorem offsetTerm_register (sign : OffsetSign) (register : Register) (kind : ShiftKind)
    {amount : Int} (fits : Numeral.FitsDecimal amount) :
    offsetTerm sign (.register register.number kind amount) =
      .ok (if amount = 0 ∧ kind = .logicalLeft then .register sign register
        else .shifted sign register kind amount) := by
  rw [offsetTerm, namedRegister_number, decimalNumber_of_fits fits, apply_ite Except.ok]
  rfl

theorem offsetTerm_immediate (sign : OffsetSign) {value : Int}
    (fits : Numeral.FitsDecimal value) :
    offsetTerm sign (.immediate value) = .ok (.immediate sign value) := by
  rw [offsetTerm, decimalNumber_of_fits fits]
  rfl

/-- What is written for an offset reads as that offset, and no bracket is in it. -/
theorem offsetTerm_reads (sign : OffsetSign) {offset : Offset} (fits : offset.FitsLong) :
    ∃ term, offsetTerm sign offset = .ok term ∧
      readOffset (cut term.text.toList) = some (sign, offset) ∧
      ∀ lexeme ∈ cut term.text.toList, isInside lexeme = true := by
  match offset, fits with
  | .immediate value, fits =>
      have nonnegative : 0 ≤ value := fits.1
      have numeral := cut_numeral Numeral.Style.decimal_plain nonnegative
      refine ⟨.immediate sign value, offsetTerm_immediate sign (fits.fitsDecimal (by decide)), ?_⟩
      cases sign <;>
        simp [OffsetTerm.text, signText, Numeral.write, numeral, readOffset, isInside,
          Numeral.Style.decimal_plain.value_characters nonnegative]
  | .register number kind amount, ⟨names, amountFits⟩ =>
      rcases names.eq_number with ⟨register, rfl⟩
      have nonnegative := amountFits.nonneg
      refine ⟨_, offsetTerm_register sign register kind (amountFits.fitsDecimal (by decide)), ?_⟩
      split
      case isTrue unshifted =>
        cases sign <;>
          simp [OffsetTerm.text, signText, readOffset, readRegisterOffset, isInside, unshifted]
      case isFalse =>
        cases sign <;>
          simp [OffsetTerm.text, signText, cut_shift kind nonnegative, readOffset,
            readRegisterOffset, isInside,
            Numeral.Style.decimal_plain.value_characters nonnegative]

/-- The end of a bracket is found behind what is inside. -/
theorem span_isInside {front : List Lexeme} (inside : ∀ lexeme ∈ front, isInside lexeme = true)
    (back : List Lexeme) :
    (front ++ .mark ']' :: back).takeWhile isInside = front ∧
      (front ++ .mark ']' :: back).dropWhile isInside = .mark ']' :: back := by
  rw [List.takeWhile_append_of_pos inside, List.dropWhile_append_of_pos inside]
  simp [isInside]

/-- An offset that is written at all stands inside the brackets or behind them. -/
theorem addressArgument_offset {transfer : Transfer} {base : Register} {term : OffsetTerm}
    (baseIs : transfer.baseRegister = base.number)
    (written : offsetTerm transfer.sign transfer.offset = .ok term)
    (notSilent : ¬ (transfer.offset = .immediate 0 ∧ transfer.indexing = .before)) :
    addressArgument transfer =
      .ok (match transfer.indexing with
        | .before => .memoryBefore base term transfer.writeBack
        | .after => .memoryAfter base term) := by
  simp only [addressArgument, baseIs, namedRegister_number, notSilent, if_false, written]
  cases transfer.indexing with
  | before => rfl
  | after => rfl

/-- What is written for an address reads as that of the transfer. -/
theorem addressArgument_reads {transfer : Transfer} {long : Bool}
    (wellFormed : transfer.WellFormed long) :
    ∃ argument, addressArgument transfer = .ok argument ∧
      readAddress transfer.valueRegister (cut argument.text.toList) = some transfer.shown := by
  rcases offsetTerm_reads transfer.sign wellFormed.offsetFits with ⟨term, written, reads, inside⟩
  have afterWritesBack := wellFormed.2.2.1
  rcases wellFormed.baseNames.eq_number with ⟨base, baseIs⟩
  rcases transfer with ⟨indexing, writeBack, sign, valueRegister, baseRegister, offset⟩
  simp only at written reads afterWritesBack baseIs
  subst baseIs
  by_cases silent : offset = .immediate 0 ∧ indexing = .before
  · refine ⟨.memory base writeBack, ?_, ?_⟩
    · simp only [addressArgument, namedRegister_number, silent, and_self, if_true]
      rfl
    · cases writeBack <;>
        simp [Argument.text, writeBackText, readAddress, Transfer.shown, silent]
  · refine ⟨_, addressArgument_offset rfl written silent, ?_⟩
    cases indexing with
    | before =>
        have offsetShown : offset ≠ .immediate 0 := fun zero => silent ⟨zero, rfl⟩
        cases writeBack <;>
          simp [Argument.text, writeBackText, readAddress, span_isInside inside, reads,
            Transfer.shown, offsetShown]
    | after => simp [Argument.text, readAddress, reads, afterWritesBack, Transfer.shown]

/-! ## Branches -/

/-- What is written for a branch reads as its offset, with the same knowledge of
where the branch stands. -/
theorem branchArgument_reads (address? : Option Int) {offset : Int}
    (reached : BranchOffset offset) :
    readBranch address? (cut (branchArgument address? offset).text.toList) = some offset := by
  cases address? with
  | none =>
      have written := Numeral.characters_signedHexadecimal offset
      have nonnegative : (0 : Int) ≤ offset.natAbs := Int.natCast_nonneg _
      have numeral := cut_numeral Numeral.Style.hexadecimal_plain nonnegative
      have value := Numeral.Style.hexadecimal_plain.value_characters nonnegative
      simp only [branchArgument, Argument.text, Numeral.write, String.toList_ofList, written]
      split
      · rw [cut_mark _ (by decide), numeral]
        simp only [readBranch, value, Option.some.injEq]
        omega
      · rw [cut_mark _ (by decide), numeral]
        simp only [readBranch, value, Option.some.injEq]
        omega
  | some address =>
      have nonnegative : 0 ≤ (Word.ofInt (address + offset)).toInt := Int.natCast_nonneg _
      have numeral := cut_numeral Numeral.Style.address_plain nonnegative
      have value := Numeral.Style.address_plain.value_characters nonnegative
      have target : (Word.ofInt (address + offset)).toInt = (address + offset) % 0x100000000 :=
        Word.toNat_ofInt _
      have near := reached.2
      have reads : readBranch (some address)
          (cut (branchArgument (some address) offset).text.toList) =
            some (toSigned ((Word.ofInt (address + offset)).toInt - address) 32) := by
        simp [branchArgument, Argument.text, Numeral.write, numeral, readBranch, value]
      rw [reads, target]
      simp only [toSigned_eq, Int.bmod, Nat.reduceShiftLeft, Option.some.injEq]
      omega

/-! ## Instructions -/

/-- The lexemes of a list of arguments. -/
def argumentLexemes (arguments : List Argument) : List Lexeme :=
  cut (", ".intercalate (arguments.map Argument.text)).toList

@[simp] theorem argumentLexemes_singleton (argument : Argument) :
    argumentLexemes [argument] = cut argument.text.toList := by
  rw [argumentLexemes, List.map_singleton, String.intercalate_singleton]

@[simp] theorem argumentLexemes_register (register : Register) (next : Argument)
    (rest : List Argument) :
    argumentLexemes (.register register :: next :: rest) =
      .word (registerText register).toList :: .mark ',' :: .mark ' ' ::
        argumentLexemes (next :: rest) := by
  simp only [argumentLexemes, List.map_cons, String.intercalate_cons_cons, String.toList_append,
    Argument.text, List.append_assoc]
  rw [cut_append _ (by simp), cut_registerText]
  simp

theorem cut_hexadecimal {value : Int} (nonnegative : 0 ≤ value) :
    cut (Argument.hexadecimal value).text.toList =
      [.mark '#', .word (Numeral.characters .hexadecimal value)] := by
  simp [Argument.text, Numeral.write, cut_numeral Numeral.Style.hexadecimal_plain nonnegative]

/-- A line is cut into its title and its arguments. -/
theorem cut_line (heading : Heading) (condition : Condition) (arguments : List Argument) :
    cut (Line.text (.instruction heading.mnemonic heading.setsFlags condition arguments)).toList =
      .word (titleLetters heading condition) :: .mark ' ' :: argumentLexemes arguments := by
  have flags : (if heading.setsFlags then "S" else "").toList =
      if heading.setsFlags then ['S'] else [] := by
    split <;> rfl
  have text : (Line.text (.instruction heading.mnemonic heading.setsFlags condition
      arguments)).toList = titleLetters heading condition ++
        ' ' :: (", ".intercalate (arguments.map Argument.text)).toList := by
    simp [Line.text, titleLetters, Heading.letters, flags]
  rw [text, cut_append _ (by simp), cut_isWord (titleLetters_isWord heading condition),
    cut_mark _ (by decide), List.singleton_append, argumentLexemes]

/-- The text of an instruction is cut like the line it is written as. -/
theorem cut_text {address? : Option Int} {instruction : Instruction} {heading : Heading}
    {arguments : List Argument}
    (written : line instruction address? =
      .ok (.instruction heading.mnemonic heading.setsFlags instruction.condition arguments)) :
    ∃ text, instruction.text address? = .ok text ∧
      cut text.toList = .word (titleLetters heading instruction.condition) :: .mark ' ' ::
        argumentLexemes arguments := by
  refine ⟨_, ?_, cut_line heading instruction.condition arguments⟩
  rw [Instruction.text, written]
  rfl

/-- An instruction is written as a line that reads as what it shows. -/
def Reads (address? : Option Int) (instruction : Instruction) : Prop :=
  ∃ heading arguments,
    line instruction address? =
      .ok (.instruction heading.mnemonic heading.setsFlags instruction.condition arguments) ∧
    readOperation address? heading (argumentLexemes arguments) = some instruction.operation.shown

theorem Reads.read_text {address? : Option Int} {instruction : Instruction}
    (reads : Reads address? instruction) :
    ∃ text, instruction.text address? = .ok text ∧ read address? text = some instruction.shown := by
  rcases reads with ⟨heading, arguments, written, reads⟩
  rcases cut_text written with ⟨text, hasText, lexemes⟩
  exact ⟨text, hasText, by simp [read, lexemes, readTitle_titleLetters, reads, Instruction.shown]⟩

/-- Loads and stores are written alike. -/
theorem transferArguments_reads {transfer : Transfer} {long : Bool}
    (wellFormed : transfer.WellFormed long) :
    ∃ register argument, transfer.valueRegister = Register.number register ∧
      transferArguments transfer = .ok [.register register, argument] ∧
      readAddress transfer.valueRegister (cut argument.text.toList) = some transfer.shown := by
  rcases wellFormed.valueNames.eq_number with ⟨register, valueIs⟩
  rcases addressArgument_reads wellFormed with ⟨argument, written, reads⟩
  refine ⟨register, argument, valueIs, ?_, reads⟩
  simp only [transferArguments, registerArgument, valueIs, namedRegister_number, written]
  rfl

theorem line_reads {instruction : Instruction} (wellFormed : instruction.WellFormed)
    (address? : Option Int) : Reads address? instruction := by
  rcases instruction with ⟨condition, operation⟩
  cases operation with
  | combine operator destination source operand setsFlags =>
      rcases wellFormed with ⟨destinationNames, sourceNames, operandFits⟩
      rcases destinationNames.eq_number with ⟨destination, rfl⟩
      rcases sourceNames.eq_number with ⟨source, rfl⟩
      rcases operandArgument_reads operandFits with ⟨argument, written, reads⟩
      refine ⟨.combine operator setsFlags, [.register destination, .register source, argument],
        ?_, ?_⟩
      · simp only [line, registerArgument, namedRegister_number, written]
        rfl
      · simp [readOperation, reads, Operation.shown]
  | compare source operand =>
      rcases wellFormed with ⟨sourceNames, operandFits⟩
      rcases sourceNames.eq_number with ⟨source, rfl⟩
      rcases operandArgument_reads operandFits with ⟨argument, written, reads⟩
      refine ⟨.compare, [.register source, argument], ?_, ?_⟩
      · simp only [line, registerArgument, namedRegister_number, written]
        rfl
      · simp [readOperation, reads, Operation.shown]
  | move inverted destination operand setsFlags =>
      rcases wellFormed with ⟨destinationNames, operandFits⟩
      rcases destinationNames.eq_number with ⟨destination, rfl⟩
      rcases operandArgument_reads operandFits with ⟨argument, written, reads⟩
      refine ⟨.move inverted setsFlags, [.register destination, argument], ?_, ?_⟩
      · simp only [line, registerArgument, namedRegister_number, written]
        rfl
      · simp [readOperation, reads, Operation.shown]
  | moveHalf half destination immediate =>
      rcases wellFormed with ⟨destinationNames, fits⟩
      rcases destinationNames.eq_number with ⟨destination, rfl⟩
      refine ⟨.moveHalf half, [.register destination, .hexadecimal immediate], ?_, ?_⟩
      · simp only [line, registerArgument, namedRegister_number]
        cases half <;> rfl
      · simp [readOperation, cut_hexadecimal fits.nonneg,
          Numeral.Style.hexadecimal_plain.value_characters fits.nonneg, Operation.shown]
  | branch offset link =>
      refine ⟨.branch link, [branchArgument address? offset], rfl, ?_⟩
      simp [readOperation, branchArgument_reads address? wellFormed, Operation.shown]
  | branchExchange register =>
      rcases IsRegister.eq_number wellFormed with ⟨register, rfl⟩
      refine ⟨.branchExchange, [.register register], ?_, ?_⟩
      · simp only [line, registerArgument, namedRegister_number]
        rfl
      · simp [readOperation, Argument.text, Operation.shown]
  | load size transfer =>
      rcases transferArguments_reads wellFormed with ⟨register, argument, valueIs, written, reads⟩
      rw [valueIs] at reads
      refine ⟨.load size, [.register register, argument], ?_, ?_⟩
      · simp only [line, written]
        rfl
      · simp [readOperation, reads, Operation.shown]
  | store size transfer =>
      rcases transferArguments_reads wellFormed with ⟨register, argument, valueIs, written, reads⟩
      rw [valueIs] at reads
      refine ⟨.store size, [.register register, argument], ?_, ?_⟩
      · simp only [line, written]
        rfl
      · simp [readOperation, reads, Operation.shown]
  | supervisorCall immediate =>
      have nonnegative : 0 ≤ immediate := wellFormed.1
      refine ⟨.supervisorCall, [.hexadecimal immediate], rfl, ?_⟩
      simp [readOperation, cut_hexadecimal nonnegative,
        Numeral.Style.hexadecimal_plain.value_characters nonnegative, Operation.shown]
  | undefined => exact wellFormed.elim

end Assembly

/-- The text of a well-formed instruction reads as what it shows of the
instruction. -/
theorem Instruction.read_text {instruction : Instruction} (wellFormed : instruction.WellFormed)
    (address? : Option Int) :
    ∃ text, instruction.text address? = .ok text ∧
      Assembly.read address? text = some instruction.shown :=
  (Assembly.line_reads wellFormed address?).read_text

end Arm32
