import Arm32.Proofs.Decoding.Reading

namespace Arm32

/-! What decoding reaches and what it loses. It reaches exactly the well-formed
instructions, each by the word that encoding gives it. It loses exactly the ignored
bits: the words of an instruction are its encoding with anything at those bits. -/

/-- No operation ignores the bits of the condition. -/
theorem Operation.top_and_not_ignoredBits (operation : Operation) :
    ~~~operation.ignoredBits &&& 0xF0000000 = 0xF0000000 := by
  have transfers (moved : Transfer) (long : Bool) :
      ~~~(moved.ignoredBits long) &&& 0xF0000000 = 0xF0000000 := by
    unfold Transfer.ignoredBits
    split <;> split <;> decide
  cases operation with
  | load size moved => exact transfers moved size.isLong
  | store size moved => exact transfers moved size.isLong
  | _ =>
      simp only [ignoredBits]
      decide

namespace Instruction

variable {word : Word} {operation : Operation} {instruction : Instruction}

/-! ## The room of an operation -/

theorem operandBits_lt {operand : Operand} (wellFormed : operand.WellFormed) :
    operandBits operand < 1 <<< 25 + 0x1000 := by
  have low := operandLow_lt wellFormed
  have shape := operand.isImmediate.toNat_le
  rw [operandBits_eq]
  simp only [flag]
  omega

theorem transferBits_lt {moved : Transfer} {isLoad : Bool}
    (valueNames : IsRegister moved.valueRegister) (baseNames : IsRegister moved.baseRegister) :
    transferBits moved isLoad < 1 <<< 25 - 1 <<< 22 := by
  have before := (decide (moved.indexing = .before)).toNat_le
  have sign := (signFlag moved.sign).toNat_le
  have writeBack := (decide (moved.indexing = .before) && moved.writeBack).toNat_le
  have loads := isLoad.toNat_le
  simp only [IsRegister] at valueNames baseNames
  simp only [transferBits, flag, placed]
  omega

theorem longTransferBits_lt {moved : Transfer} {isLoad isByte : Bool}
    (wellFormed : moved.WellFormed true) : longTransferBits moved isLoad isByte < 1 <<< 28 := by
  rcases wellFormed with ⟨valueNames, baseNames, -, fits⟩
  have shared := @transferBits_lt moved isLoad valueNames baseNames
  have low := longOffsetLow_lt fits
  have shape := (!moved.offset.isImmediate).toNat_le
  have byte := isByte.toNat_le
  simp only [longTransferBits, longOffsetBits_eq, flag]
  omega

theorem shortTransferBits_lt {moved : Transfer} {isLoad : Bool} {type : Nat}
    (wellFormed : moved.WellFormed false) (typeFits : type < 4) :
    shortTransferBits moved isLoad type < 1 <<< 28 := by
  rcases wellFormed with ⟨valueNames, baseNames, -, fits⟩
  have shared := @transferBits_lt moved isLoad valueNames baseNames
  have low := shortOffsetLow_lt fits typeFits (Nat.zero_lt_succ 15)
  have shape := moved.offset.isImmediate.toNat_le
  have offsetBits := shortOffsetBits_eq 0 moved.offset
  simp only [shortTransferBits, placed_natCast, flag, Bool.toNat_true]
  omega

/-- The condition has its four bits to itself. -/
theorem operationBits_lt (wellFormed : operation.WellFormed) :
    operationBits operation < 1 <<< 28 := by
  cases operation with
  | combine operator destination source operand setsFlags =>
      rcases wellFormed with ⟨destinationNames, sourceNames, operandFits⟩
      have code : operatorCode operator < 16 := by cases operator <;> decide
      have operandBound := operandBits_lt operandFits
      have setsFlagsFits := setsFlags.toNat_le
      simp only [IsRegister] at destinationNames sourceNames
      simp only [operationBits, placed, flag]
      omega
  | compare source operand =>
      rcases wellFormed with ⟨sourceNames, operandFits⟩
      have operandBound := operandBits_lt operandFits
      simp only [IsRegister] at sourceNames
      simp only [operationBits, placed, flag, Bool.toNat_true]
      omega
  | move inverted destination operand setsFlags =>
      rcases wellFormed with ⟨destinationNames, operandFits⟩
      have operandBound := operandBits_lt operandFits
      have setsFlagsFits := setsFlags.toNat_le
      simp only [IsRegister] at destinationNames
      simp only [operationBits, placed, flag]
      split <;> omega
  | moveHalf half destination immediate =>
      rcases wellFormed with ⟨destinationNames, fits⟩
      have halfFits := (decide (half = .high)).toNat_le
      simp only [IsRegister] at destinationNames
      simp only [Fits, Nat.reduceShiftLeft] at fits
      simp only [operationBits, placed, flag, Bool.toNat_true]
      omega
  | branch offset link =>
      have linkFits := link.toNat_le
      simp only [operationBits, placed, flag]
      omega
  | branchExchange register =>
      simp only [Operation.WellFormed, IsRegister] at wellFormed
      simp only [operationBits, placed]
      omega
  | load size moved =>
      cases size with
      | word | byte => exact longTransferBits_lt wellFormed
      | doubleWord | unsignedHalfWord | signedByte | signedHalfWord =>
          exact shortTransferBits_lt wellFormed (by decide)
  | store size moved =>
      cases size with
      | word | byte => exact longTransferBits_lt wellFormed
      | doubleWord | halfWord => exact shortTransferBits_lt wellFormed (by decide)
  | supervisorCall immediate =>
      simp only [Operation.WellFormed, Fits, Nat.reduceShiftLeft] at wellFormed
      simp only [operationBits, placed]
      omega
  | undefined => exact wellFormed.elim

/-! ## Words without anything at the ignored bits -/

theorem clear_of_longTransfer {moved : Transfer} {isLoad isByte : Bool}
    (wellFormed : moved.WellFormed true)
    (exact : word.field 0 28 = longTransferBits moved isLoad isByte) :
    (word &&& moved.ignoredBits true).toNat = 0 := by
  have layout : word.field 0 28 = longTransferBits moved isLoad isByte +
      if moved.indexing = .after then 0 <<< 21 else 0 := by
    rw [exact, Nat.zero_shiftLeft, ite_self, Nat.add_zero]
  rcases holdsTransfer_of_long wellFormed Nat.zero_lt_two layout with ⟨-, -, -, -, writeBack⟩
  rw [Transfer.toNat_and_ignoredBits]
  simp only [Bool.true_or, if_true, Nat.add_zero]
  split
  case isTrue after => rw [writeBack after, Nat.zero_shiftLeft]
  case isFalse => rfl

theorem clear_of_shortTransfer {moved : Transfer} {isLoad : Bool} {type : Nat}
    (wellFormed : moved.WellFormed false) (typeFits : type < 4)
    (exact : word.field 0 28 = shortTransferBits moved isLoad type) :
    (word &&& moved.ignoredBits false).toNat = 0 := by
  have layout : word.field 0 28 = shortTransferBits moved isLoad type +
      ((if moved.indexing = .after then 0 <<< 21 else 0) +
        if moved.offset.isImmediate then 0 else 0 <<< 8) := by
    rw [exact, Nat.zero_shiftLeft, Nat.zero_shiftLeft, ite_self, ite_self, Nat.add_zero]
  rcases holdsTransfer_of_short wellFormed typeFits (Nat.zero_lt_succ 15) Nat.zero_lt_two layout
    with ⟨-, low, immediate, -, writeBack⟩
  have freeHalf := (shortOffset_eq wellFormed.2.2.2 typeFits low (bit_eq_of_field immediate)).2.2.2
  rw [Transfer.toNat_and_ignoredBits, Bool.false_or]
  have first : (if moved.indexing = .after then word.field 21 1 <<< 21 else 0) = 0 := by
    split
    case isTrue after => rw [writeBack after, Nat.zero_shiftLeft]
    case isFalse => rfl
  have second : (if moved.offset.isImmediate then 0 else word.field 8 4 <<< 8) = 0 := by
    split
    case isTrue => rfl
    case isFalse register => rw [freeHalf (Bool.eq_false_iff.mpr register), Nat.zero_shiftLeft]
  rw [first, second]

/-- A word that holds the fields of an operation and no more has its ignored bits clear. -/
theorem clear_of_exact (wellFormed : operation.WellFormed)
    (exact : word.field 0 28 = operationBits operation) :
    (word &&& operation.ignoredBits).toNat = 0 := by
  cases operation with
  | compare source operand =>
      rcases wellFormed with ⟨sourceNames, operandFits⟩
      have sum : word.field 0 28 = 0xA <<< 21 + flag true 20 + source.toNat <<< 16 + 0 <<< 12 +
          operandBits operand := by
        rw [exact, Nat.zero_shiftLeft, Nat.add_zero]
        rfl
      have sourceNumber := toNat_of_isRegister sourceNames
      rcases holdsData_of_sum operandFits (by decide) sourceNumber.2 (Nat.zero_lt_succ 15) sum with
        ⟨-, -, second⟩
      rw [Operation.ignoredBits, toNat_and_second, second, Nat.zero_shiftLeft]
  | move inverted destination operand setsFlags =>
      rcases wellFormed with ⟨destinationNames, operandFits⟩
      have destinationNumber := toNat_of_isRegister destinationNames
      have codeFits : (if inverted then 0xF else 0xD : Int).toNat < 16 := by split <;> decide
      have sum : word.field 0 28 = (if inverted then 0xF else 0xD : Int).toNat <<< 21 +
          flag setsFlags 20 + 0 <<< 16 + destination.toNat <<< 12 + operandBits operand := by
        rw [exact, Nat.zero_shiftLeft, Nat.add_zero]
        rfl
      rcases holdsData_of_sum operandFits codeFits (Nat.zero_lt_succ 15) destinationNumber.2 sum
        with ⟨-, first, -⟩
      rw [Operation.ignoredBits, toNat_and_first, first, Nat.zero_shiftLeft]
  | load size moved =>
      cases size with
      | word | byte => exact clear_of_longTransfer wellFormed exact
      | doubleWord | unsignedHalfWord | signedByte | signedHalfWord =>
          exact clear_of_shortTransfer wellFormed (by decide) exact
  | store size moved =>
      cases size with
      | word | byte => exact clear_of_longTransfer wellFormed exact
      | doubleWord | halfWord => exact clear_of_shortTransfer wellFormed (by decide) exact
  | undefined => exact wellFormed.elim
  | _ => exact toNat_and_zero word

/-! ## Conditions -/

theorem conditionOf_eq_ok {condition : Condition} :
    conditionOf word = .ok condition ↔ word.field 28 4 = condition.code := by
  constructor
  · intro decoded
    have bound : word.field 28 4 < 16 := word.field_lt 28 4
    have codes : ∀ code < 16, ∀ found ∈ Condition.ofCode? code, code = found.code := by decide
    unfold conditionOf at decoded
    split at decoded
    case h_1 found =>
      cases decoded
      exact codes _ bound _ found
    case h_2 => cases decoded
  · intro code
    rw [conditionOf, code, Condition.ofCode_code]

/-! ## Words -/

theorem toNat_encode (wellFormed : instruction.WellFormed) :
    (encode instruction).toNat =
      instruction.condition.code <<< 28 + operationBits instruction.operation := by
  have room := operationBits_lt wellFormed
  have reduced := Word.toNat_ofInt
    (placed instruction.condition.code 28 + operationBits instruction.operation : Nat)
  have codeFits : instruction.condition.code < 15 := by
    cases instruction.condition <;> decide
  rw [encode, ← placed_natCast]
  simp only [placed_natCast] at *
  omega

/-- The condition of a word is not among its ignored bits. -/
theorem field_and_not_ignoredBits (word : Word) (operation : Operation) :
    (word &&& ~~~operation.ignoredBits).field 28 4 = word.field 28 4 := by
  have whole : (word &&& 0xF0000000).toNat = word.field 28 4 <<< 28 := word.toNat_and_mask rfl
  have rest : ((word &&& ~~~operation.ignoredBits) &&& 0xF0000000).toNat =
      (word &&& ~~~operation.ignoredBits).field 28 4 <<< 28 :=
    (word &&& ~~~operation.ignoredBits).toNat_and_mask rfl
  rw [BitVec.and_assoc, operation.top_and_not_ignoredBits, whole] at rest
  omega

/-- The words of an operation under a condition, as one number. -/
theorem and_not_eq_encode_iff (wellFormed : instruction.WellFormed) :
    word &&& ~~~instruction.operation.ignoredBits = encode instruction ↔
      word.field 28 4 = instruction.condition.code ∧ word.Spells instruction.operation := by
  have top := field_and_not_ignoredBits word instruction.operation
  have sum := word.toNat_and_not_add instruction.operation.ignoredBits
  have room := operationBits_lt wellFormed
  have whole : word.toNat = word.field 0 28 + word.field 28 4 <<< 28 := by
    have cut : word.field 0 32 = word.field 0 28 + word.field 28 4 <<< 28 :=
      word.field_append 0 28 4
    have inside := word.isLt
    simp only [Word.field, Nat.reduceShiftLeft] at cut ⊢
    omega
  rw [← BitVec.toNat_inj, toNat_encode wellFormed, Word.Spells]
  constructor
  · intro encoded
    have code : word.field 28 4 = instruction.condition.code := by
      rw [← top]
      simp only [Word.field, Nat.reduceShiftLeft, encoded] at *
      omega
    exact ⟨code, by omega⟩
  · rintro ⟨code, spells⟩
    omega

/-- The words of an instruction: its encoding, with anything at the ignored bits. -/
theorem ofWord_eq_ok_iff :
    ofWord word = .ok instruction ↔
      instruction.WellFormed ∧
        word &&& ~~~instruction.operation.ignoredBits = encode instruction := by
  constructor
  · intro decoded
    have wellFormed := ofWord_wellFormed decoded
    rcases ofWord_eq_ok.mp decoded with ⟨condition, operation⟩
    refine ⟨wellFormed, (and_not_eq_encode_iff wellFormed).mpr ⟨?_, ?_⟩⟩
    · exact conditionOf_eq_ok.mp condition
    · exact spells_of_operationOf operation
  · rintro ⟨wellFormed, encoded⟩
    rcases (and_not_eq_encode_iff wellFormed).mp encoded with ⟨code, spells⟩
    exact ofWord_eq_ok.mpr ⟨conditionOf_eq_ok.mpr code, operationOf_of_spells wellFormed spells⟩

theorem ofWord_encode (wellFormed : instruction.WellFormed) :
    ofWord (encode instruction) = .ok instruction := by
  have top : (encode instruction).field 28 4 = instruction.condition.code ∧
      (encode instruction).field 0 28 = operationBits instruction.operation := by
    have room := operationBits_lt wellFormed
    have codeFits : instruction.condition.code < 15 := by
      cases instruction.condition <;> decide
    simp only [Word.field, toNat_encode wellFormed, Nat.reduceShiftLeft] at *
    omega
  have spells : (encode instruction).Spells instruction.operation := by
    rw [Word.Spells, clear_of_exact wellFormed top.2, Nat.add_zero]
    exact top.2
  exact ofWord_eq_ok.mpr
    ⟨conditionOf_eq_ok.mpr top.1, operationOf_of_spells wellFormed spells⟩

/-- Decoding reaches exactly the well-formed instructions, and encoding finds a word
for each of them. -/
theorem decode_image (instruction : Instruction) :
    ((∃ value, decode value = .ok instruction) ↔ instruction.WellFormed) ∧
      (decode (encode instruction).toInt = .ok instruction ↔ instruction.WellFormed) := by
  have encoded (wellFormed : instruction.WellFormed) :
      decode (encode instruction).toInt = .ok instruction :=
    decode_toInt_eq_ok_iff.mpr (ofWord_encode wellFormed)
  refine ⟨⟨?_, fun wellFormed => ⟨_, encoded wellFormed⟩⟩, ⟨wellFormed_of_decode, encoded⟩⟩
  rintro ⟨value, decoded⟩
  exact wellFormed_of_decode decoded

/-- Decoding loses exactly the ignored bits of an instruction. -/
theorem decode_eq_decode_iff {first second : Word}
    (accepted : decode first.toInt = .ok instruction) :
    decode first.toInt = decode second.toInt ↔
      ∀ index, instruction.operation.ignoredBits.getLsbD index = false →
        first.getLsbD index = second.getLsbD index := by
  rw [accepted, eq_comm, decode_toInt_eq_ok_iff, ofWord_eq_ok_iff, ← Word.and_not_eq_iff]
  rw [decode_toInt_eq_ok_iff, ofWord_eq_ok_iff] at accepted
  rw [and_iff_right accepted.1, ← accepted.2, eq_comm]

/-- Three half word stores to `[r1], -r2` and `[r1], -r3`: the first two words differ
in the bits 21 and 11 to 8 only, the third one in bit 0. -/
theorem decode_eq_decode_iff_halfWord :
    decode (0xE00100B2 : Word).toInt = .ok ⟨.always, .store .halfWord
        ⟨.after, true, .minus, 0, 1, .register 2 .logicalLeft 0⟩⟩ ∧
      decode (0xE00100B2 : Word).toInt = decode (0xE0210FB2 : Word).toInt ∧
      decode (0xE00100B2 : Word).toInt ≠ decode (0xE00100B3 : Word).toInt := by
  have accepted : decode (0xE00100B2 : Word).toInt = .ok ⟨.always, .store .halfWord
      ⟨.after, true, .minus, 0, 1, .register 2 .logicalLeft 0⟩⟩ := decode_toInt_eq_ok_iff.mpr rfl
  refine ⟨accepted, (decode_eq_decode_iff accepted).mpr ?_, fun equal => ?_⟩
  · exact (Word.and_not_eq_iff _ _ _).mp (by decide)
  · have bit : (0xE00100B2 : Word).getLsbD 0 = (0xE00100B3 : Word).getLsbD 0 :=
      (decode_eq_decode_iff accepted).mp equal 0 (by decide)
    exact absurd bit (by decide)

end Instruction

end Arm32
