import Arm32.Proofs.Decoding.Layout

namespace Arm32.Instruction

/-! Reading words back. A word that spells a well-formed operation is decoded to it,
whatever its ignored bits are: its fields are those of the operation, and no check
for another encoding comes in between. -/

variable {word : Word}

/-! ## Operands -/

/-- The low twelve bits of an operand. -/
def operandLow : Operand → Nat
  | .immediate value _ rotation =>
      placed (rotation / 2) 8 + (Word.rotateRight value (-rotation)).toNat
  | .register register kind amount =>
      shiftAmountBits amount + placed kind.code 5 + placed register 0

theorem operandBits_eq (operand : Operand) :
    operandBits operand = flag operand.isImmediate 25 + operandLow operand := by
  cases operand with
  | immediate value carry rotation => exact Nat.add_assoc _ _ _
  | register number kind amount =>
      have clear : flag false 25 = 0 := Nat.zero_shiftLeft 25
      rw [Operand.isImmediate, clear, Nat.zero_add]
      rfl

theorem byte_of_rotatedByte {value rotation : Int} {carry : Bool}
    (rotated : RotatedByte value carry rotation) :
    (Word.rotateRight value (-rotation)).toNat < 0x100 ∧
      value = (Word.rotateRight (Word.rotateRight value (-rotation)).toNat rotation).toInt := by
  rcases rotated with ⟨-, -, -, byte, fits, rfl⟩
  have reduced := Word.toNat_ofInt byte
  simp only [Fits, Nat.reduceShiftLeft] at fits
  have back : ((Word.rotateRight (Word.rotateRight byte rotation).toInt (-rotation)).toNat : Int) =
      byte := by
    rw [Word.rotateRight_rotateRight, Int.add_right_neg, Word.rotateRight_zero]
    omega
  refine ⟨?_, ?_⟩
  · omega
  · rw [back]

theorem code_lt (kind : ShiftKind) : kind.code < 4 := by
  cases kind <;> decide

theorem operandLow_lt {operand : Operand} (wellFormed : operand.WellFormed) :
    operandLow operand < 0x1000 := by
  cases operand with
  | immediate value carry rotation =>
      have bound := (byte_of_rotatedByte wellFormed).1
      have fits := wellFormed.1
      simp only [Fits, Nat.reduceShiftLeft] at fits
      simp only [operandLow, placed]
      omega
  | register number kind amount =>
      have code := code_lt kind
      rcases wellFormed with ⟨names, amountFits⟩
      simp only [IsRegister] at names
      cases amount with
      | immediate amount =>
          simp only [ShiftAmount.WellFormed, Fits, Nat.reduceShiftLeft] at amountFits
          simp only [operandLow, shiftAmountBits, placed]
          omega
      | register amount =>
          simp only [ShiftAmount.WellFormed, IsRegister] at amountFits
          simp only [operandLow, shiftAmountBits, placed, flag, Bool.toNat_true]
          omega

/-- The low twelve bits of a word, cut where a shifted register is held. -/
theorem field_of_shifted (word : Word) :
    word.field 0 12 =
      word.field 0 4 + word.field 4 1 <<< 4 + word.field 5 2 <<< 5 + word.field 7 1 <<< 7 +
        word.field 8 4 <<< 8 := by
  have fields : word.field 0 12 = _ := word.field_sum 0 [4, 1, 2, 1, 4]
  simp only [Word.joinedFields, Nat.reduceAdd] at fields
  omega

theorem bit_eq_of_field {index : Nat} {value : Bool} (equal : word.field index 1 = value.toNat) :
    word.bit index = value := by
  rw [Word.bit, equal]
  cases value <;> rfl

/-- A shifted register is read from the low twelve bits. A shift by a register has
its bits 7 and 4 differ from those of an extra transfer, and so has a shift by an
amount. -/
theorem shiftedRegister_eq {number : Int} {kind : ShiftKind} {amount : ShiftAmount}
    (wellFormed : (Operand.register number kind amount).WellFormed)
    (bits : word.field 0 12 = operandLow (.register number kind amount)) :
    shiftedRegister word = .register number kind amount ∧
      ¬ (word.bit 7 = true ∧ word.bit 4 = true) := by
  have code := code_lt kind
  have numberBound := word.field_lt 0 4
  have kindBound := word.field_lt 5 2
  have fourBound := word.field_lt 4 1
  have sevenBound := word.field_lt 7 1
  have upper : word.field 7 5 = word.field 7 1 + word.field 8 4 <<< 1 := word.field_append 7 1 4
  rcases wellFormed with ⟨names, amountFits⟩
  rw [field_of_shifted] at bits
  simp only [IsRegister] at names
  cases amount with
  | immediate amount =>
      simp only [ShiftAmount.WellFormed, Fits, Nat.reduceShiftLeft] at amountFits
      simp only [operandLow, shiftAmountBits, placed] at bits
      have numberRead : (word.field 0 4 : Int) = number := by omega
      have kindRead : word.field 5 2 = kind.code := by omega
      have amountRead : (word.field 7 5 : Int) = amount := by omega
      have clear : word.bit 4 = false := bit_eq_of_field (by rw [Bool.toNat_false]; omega)
      refine ⟨?_, ?_⟩
      · simp only [shiftedRegister, shiftKindOf, numberRead, kindRead, amountRead, clear,
          ShiftKind.ofCode_code, Bool.false_eq_true, if_false]
      · rintro ⟨-, set⟩
        rw [clear] at set
        cases set
  | register amount =>
      simp only [ShiftAmount.WellFormed, IsRegister] at amountFits
      simp only [operandLow, shiftAmountBits, placed, flag, Bool.toNat_true] at bits
      have numberRead : (word.field 0 4 : Int) = number := by omega
      have kindRead : word.field 5 2 = kind.code := by omega
      have amountRead : (word.field 8 4 : Int) = amount := by omega
      have set : word.bit 4 = true := bit_eq_of_field (by rw [Bool.toNat_true]; omega)
      have clear : word.bit 7 = false := bit_eq_of_field (by rw [Bool.toNat_false]; omega)
      refine ⟨?_, ?_⟩
      · simp only [shiftedRegister, shiftKindOf, numberRead, kindRead, amountRead, set,
          ShiftKind.ofCode_code, if_true]
      · rintro ⟨high, -⟩
        rw [clear] at high
        cases high

/-- An operand is read from the low twelve bits and the bit that tells its shape. -/
theorem operandOf_eq {operand : Operand} (wellFormed : operand.WellFormed)
    (bits : word.field 0 12 = operandLow operand)
    (shape : word.bit 25 = operand.isImmediate) : operandOf word = operand := by
  cases operand with
  | immediate value carry rotation =>
      have byte := byte_of_rotatedByte wellFormed
      have fits := wellFormed.1
      have even := wellFormed.2.1
      have carryEqual := wellFormed.2.2.1
      have cut : word.field 0 12 = word.field 0 8 + word.field 8 4 <<< 8 := word.field_append 0 8 4
      have bound := word.field_lt 0 8
      simp only [Fits, Nat.reduceShiftLeft] at fits
      simp only [operandLow, placed] at bits
      have low : word.field 0 8 = (Word.rotateRight value (-rotation)).toNat := by omega
      have high : ((2 * word.field 8 4 : Nat) : Int) = rotation := by omega
      rw [operandOf, shape]
      simp only [Operand.isImmediate, if_true, rotatedImmediate, high, low, ← byte.2, ← carryEqual]
  | register number kind amount =>
      rw [operandOf, shape]
      exact (shiftedRegister_eq wellFormed bits).1

theorem plain_of_operand {operand : Operand} (wellFormed : operand.WellFormed)
    (bits : word.field 0 12 = operandLow operand) (shape : operand.isImmediate = false) :
    ¬ (word.bit 7 = true ∧ word.bit 4 = true) := by
  cases operand with
  | immediate value carry rotation => cases shape
  | register number kind amount => exact (shiftedRegister_eq wellFormed bits).2

/-! ## Data processing -/

/-- The low 28 bits of a word, cut where a data operation is held. -/
theorem field_of_data (word : Word) :
    word.field 0 28 =
      word.field 0 12 + word.field 12 4 <<< 12 + word.field 16 4 <<< 16 + word.field 20 1 <<< 20 +
        word.field 21 4 <<< 21 + word.field 25 1 <<< 25 + word.field 26 2 <<< 26 := by
  have fields : word.field 0 28 = _ := word.field_sum 0 [12, 4, 4, 1, 4, 1, 2]
  simp only [Word.joinedFields, Nat.reduceAdd] at fields
  omega

/-- What the fields of a data operation have to be. -/
structure HoldsData (word : Word) (opcode : Nat) (setsFlags : Bool) (operand : Operand) :
    Prop where
  opcode : word.field 21 4 = opcode
  setsFlags : word.bit 20 = setsFlags
  shape : word.bit 25 = operand.isImmediate
  upper : word.field 26 2 = 0
  low : word.field 0 12 = operandLow operand

/-- The fields of a data operation, whatever its registers are. -/
theorem holdsData_of_sum {opcode first second : Nat} {setsFlags : Bool} {operand : Operand}
    (wellFormed : operand.WellFormed) (opcodeFits : opcode < 16) (firstFits : first < 16)
    (secondFits : second < 16)
    (sum : word.field 0 28 =
      opcode <<< 21 + flag setsFlags 20 + first <<< 16 + second <<< 12 + operandBits operand) :
    HoldsData word opcode setsFlags operand ∧ word.field 16 4 = first ∧
      word.field 12 4 = second := by
  have lowFits := operandLow_lt wellFormed
  have flagFits := setsFlags.toNat_le
  have shapeFits := operand.isImmediate.toNat_le
  have low := word.field_lt 0 12
  have second := word.field_lt 12 4
  have first := word.field_lt 16 4
  have twenty := word.field_lt 20 1
  have opcodeBound := word.field_lt 21 4
  have twentyFive := word.field_lt 25 1
  rw [operandBits_eq, field_of_data] at sum
  simp only [flag] at sum
  -- Both sides are sums of parts that fit their places, so the parts agree.
  refine ⟨⟨?_, bit_eq_of_field ?_, bit_eq_of_field ?_, ?_, ?_⟩, ?_, ?_⟩ <;> omega

/-- A data operation with an opcode that is known is decoded as one. -/
theorem HoldsData.operationOf_eq {opcode : Nat} {setsFlags : Bool} {operand : Operand}
    (holds : HoldsData word opcode setsFlags operand) (wellFormed : operand.WellFormed)
    (known : opcode ∈ writingOpcodes ∨ opcode = 0xA ∧ setsFlags = true) :
    operationOf word = dataProcessing word := by
  have classCut : word.field 25 3 = word.field 25 1 + word.field 26 2 <<< 1 :=
    word.field_append 25 1 2
  have shapeBit := flag_bit word 25 0
  rw [holds.shape, flag] at shapeBit
  rw [holds.upper] at classCut
  rw [← holds.opcode, ← holds.setsFlags] at known
  cases shape : operand.isImmediate with
  | true =>
      rw [shape] at shapeBit
      have classEqual : word.field 25 3 = 1 := by
        rw [Bool.toNat_true] at shapeBit
        omega
      rw [operationOf_immediateClass classEqual]
      apply immediateClass_of_plain
      intro wide
      rcases known with writes | compares
      · exact not_writing_of_wideMove wide writes
      · exact not_comparing_of_wideMove wide compares
  | false =>
      rw [shape] at shapeBit
      have classEqual : word.field 25 3 = 0 := by
        rw [Bool.toNat_false] at shapeBit
        omega
      rw [operationOf_registerClass classEqual]
      apply registerClass_of_plain _ (plain_of_operand wellFormed holds.low shape)
      intro exchange
      rcases known with writes | compares
      · exact not_writing_of_exchange exchange writes
      · exact not_comparing_of_exchange exchange compares

theorem HoldsData.operandOf_eq {opcode : Nat} {setsFlags : Bool} {operand : Operand}
    (holds : HoldsData word opcode setsFlags operand) (wellFormed : operand.WellFormed) :
    operandOf word = operand :=
  Instruction.operandOf_eq wellFormed holds.low holds.shape

theorem dataProcessing_combine {operator : DataOperator}
    (opcode : word.field 21 4 = operatorCode operator) :
    dataProcessing word = .ok (.combine operator (secondRegister word) (firstRegister word)
      (operandOf word) (word.bit 20)) := by
  unfold dataProcessing
  rw [opcode]
  cases operator <;> rfl

theorem dataProcessing_move {inverted : Bool}
    (opcode : word.field 21 4 = if inverted then 0xF else 0xD) :
    dataProcessing word =
      .ok (.move inverted (secondRegister word) (operandOf word) (word.bit 20)) := by
  unfold dataProcessing
  rw [opcode]
  cases inverted <;> rfl

theorem toNat_of_isRegister {number : Int} (names : IsRegister number) :
    (number.toNat : Int) = number ∧ number.toNat < 16 := by
  simp only [IsRegister] at names
  omega

theorem operationOf_of_combine {operator : DataOperator} {destination source : Int}
    {operand : Operand} {setsFlags : Bool}
    (wellFormed : (Operation.combine operator destination source operand setsFlags).WellFormed)
    (spells : word.Spells (.combine operator destination source operand setsFlags)) :
    operationOf word = .ok (.combine operator destination source operand setsFlags) := by
  rcases wellFormed with ⟨destinationNames, sourceNames, operandFits⟩
  have codeFits : operatorCode operator < 16 := by cases operator <;> decide
  have writes : operatorCode operator ∈ writingOpcodes := by cases operator <;> decide
  have destinationNumber := toNat_of_isRegister destinationNames
  have sourceNumber := toNat_of_isRegister sourceNames
  simp only [Word.Spells, operationBits, Operation.ignoredBits, toNat_and_zero, Nat.add_zero,
    placed, Int.toNat_natCast] at spells
  rcases holdsData_of_sum operandFits codeFits sourceNumber.2 destinationNumber.2 spells with
    ⟨holds, first, second⟩
  rw [holds.operationOf_eq operandFits (.inl writes), dataProcessing_combine holds.opcode,
    holds.operandOf_eq operandFits, holds.setsFlags, firstRegister, secondRegister, first, second,
    sourceNumber.1, destinationNumber.1]

theorem operationOf_of_compare {source : Int} {operand : Operand}
    (wellFormed : (Operation.compare source operand).WellFormed)
    (spells : word.Spells (.compare source operand)) :
    operationOf word = .ok (.compare source operand) := by
  rcases wellFormed with ⟨sourceNames, operandFits⟩
  have sourceNumber := toNat_of_isRegister sourceNames
  simp only [Word.Spells, operationBits, Operation.ignoredBits, toNat_and_second,
    placed] at spells
  -- The ignored bits stand where a destination would.
  have sum : word.field 0 28 = 0xA <<< 21 + flag true 20 + source.toNat <<< 16 +
      word.field 12 4 <<< 12 + operandBits operand := by
    rw [spells, Nat.add_right_comm]
    rfl
  rcases holdsData_of_sum operandFits (by decide) sourceNumber.2 (word.field_lt 12 4) sum with
    ⟨holds, first, -⟩
  rw [holds.operationOf_eq operandFits (.inr ⟨rfl, rfl⟩),
    dataProcessing_of_comparing holds.opcode holds.setsFlags, holds.operandOf_eq operandFits,
    firstRegister, first, sourceNumber.1]

theorem operationOf_of_move {inverted : Bool} {destination : Int} {operand : Operand}
    {setsFlags : Bool}
    (wellFormed : (Operation.move inverted destination operand setsFlags).WellFormed)
    (spells : word.Spells (.move inverted destination operand setsFlags)) :
    operationOf word = .ok (.move inverted destination operand setsFlags) := by
  rcases wellFormed with ⟨destinationNames, operandFits⟩
  have destinationNumber := toNat_of_isRegister destinationNames
  have opcode : ∃ code, code < 16 ∧ code ∈ writingOpcodes ∧
      (if inverted then 0xF else 0xD : Int).toNat = code ∧
      code = if inverted then 0xF else 0xD := by
    cases inverted with
    | true => exact ⟨0xF, by decide⟩
    | false => exact ⟨0xD, by decide⟩
  rcases opcode with ⟨code, codeFits, writes, codeEqual, codeShape⟩
  simp only [Word.Spells, operationBits, Operation.ignoredBits, toNat_and_first, placed,
    codeEqual] at spells
  -- The ignored bits stand where a source would.
  have sum : word.field 0 28 = code <<< 21 + flag setsFlags 20 + word.field 16 4 <<< 16 +
      destination.toNat <<< 12 + operandBits operand := by
    omega
  rcases holdsData_of_sum operandFits codeFits (word.field_lt 16 4) destinationNumber.2 sum with
    ⟨holds, -, second⟩
  rw [holds.operationOf_eq operandFits (.inl writes),
    dataProcessing_move (holds.opcode.trans codeShape), holds.operandOf_eq operandFits,
    holds.setsFlags, secondRegister, second, destinationNumber.1]

/-! ## Wide moves, branches and calls -/

/-- The low 28 bits of a word, cut where a wide move is held. -/
theorem field_of_wideMove (word : Word) :
    word.field 0 28 =
      word.field 0 12 + word.field 12 4 <<< 12 + word.field 16 4 <<< 16 + word.field 20 2 <<< 20 +
        word.field 22 1 <<< 22 + word.field 23 2 <<< 23 + word.field 25 3 <<< 25 := by
  have fields : word.field 0 28 = _ := word.field_sum 0 [12, 4, 4, 2, 1, 2, 3]
  simp only [Word.joinedFields, Nat.reduceAdd] at fields
  omega

theorem operationOf_of_moveHalf {half : Half} {destination immediate : Int}
    (wellFormed : (Operation.moveHalf half destination immediate).WellFormed)
    (spells : word.Spells (.moveHalf half destination immediate)) :
    operationOf word = .ok (.moveHalf half destination immediate) := by
  rcases wellFormed with ⟨destinationNames, fits⟩
  have destinationNumber := toNat_of_isRegister destinationNames
  have low := word.field_lt 0 12
  have second := word.field_lt 12 4
  have first := word.field_lt 16 4
  have twenty := word.field_lt 20 2
  have twentyTwo := word.field_lt 22 1
  have twentyThree := word.field_lt 23 2
  have halfFits := (decide (half = .high)).toNat_le
  simp only [Fits, Nat.reduceShiftLeft] at fits
  simp only [Word.Spells, operationBits, Operation.ignoredBits, toNat_and_zero, Nat.add_zero,
    placed, flag, Bool.toNat_true, field_of_wideMove] at spells
  have classEqual : word.field 25 3 = 1 := by omega
  have wide : word.field 23 2 = 2 ∧ word.field 20 2 = 0 := by omega
  have halfRead : word.bit 22 = decide (half = .high) := bit_eq_of_field (by omega)
  have destinationRead : (word.field 12 4 : Int) = destination := by omega
  have immediateRead : ((0x1000 * word.field 16 4 + word.field 0 12 : Nat) : Int) = immediate := by
    omega
  rw [operationOf_immediateClass classEqual, immediateClass_of_wideMove wide, wideMove, halfRead,
    secondRegister, destinationRead, immediateRead]
  cases half <;> rfl

theorem operationOf_of_branch {offset : Int} {link : Bool}
    (wellFormed : (Operation.branch offset link).WellFormed)
    (spells : word.Spells (.branch offset link)) :
    operationOf word = .ok (.branch offset link) := by
  have bound := word.field_lt 0 24
  have twentyFour := word.field_lt 24 1
  have linkFits := link.toNat_le
  have layout := field_of_count word
  simp only [Operation.WellFormed, BranchOffset] at wellFormed
  simp only [Word.Spells, operationBits, Operation.ignoredBits, toNat_and_zero, Nat.add_zero,
    placed, flag, fetchAhead] at spells
  have classEqual : word.field 25 3 = 5 := by omega
  have linkRead : word.bit 24 = link := bit_eq_of_field (by omega)
  have countRead : (word.field 0 24 : Int) = (offset - 8) / 4 % 0x1000000 := by omega
  have offsetRead : 4 * toSigned (word.field 0 24) 24 + fetchAhead = offset := by
    simp only [toSigned_eq, Int.bmod, fetchAhead, Nat.reduceShiftLeft, countRead]
    omega
  unfold operationOf
  rw [classEqual]
  change Except.ok (branch word) = _
  rw [branch, offsetRead, linkRead]

theorem operationOf_of_branchExchange {register : Int}
    (wellFormed : (Operation.branchExchange register).WellFormed)
    (spells : word.Spells (.branchExchange register)) :
    operationOf word = .ok (.branchExchange register) := by
  have number := toNat_of_isRegister wellFormed
  have bound := word.field_lt 0 4
  have upper := word.field_lt 25 3
  have cut0 : word.field 0 28 = word.field 0 4 + word.field 4 24 <<< 4 := word.field_append 0 4 24
  have cut4 : word.field 4 24 = word.field 4 21 + word.field 25 3 <<< 21 :=
    word.field_append 4 21 3
  simp only [Word.Spells, operationBits, Operation.ignoredBits, toNat_and_zero, Nat.add_zero,
    placed] at spells
  have exchange : word.field 4 24 = 0x12FFF1 := by omega
  have classEqual : word.field 25 3 = 0 := by omega
  have registerRead : (word.field 0 4 : Int) = register := by omega
  rw [operationOf_registerClass classEqual, registerClass_of_exchange exchange, registerRead]

theorem operationOf_of_supervisorCall {immediate : Int}
    (wellFormed : (Operation.supervisorCall immediate).WellFormed)
    (spells : word.Spells (.supervisorCall immediate)) :
    operationOf word = .ok (.supervisorCall immediate) := by
  have bound := word.field_lt 0 24
  have twentyFour := word.field_lt 24 1
  have layout := field_of_count word
  simp only [Operation.WellFormed, Fits, Nat.reduceShiftLeft] at wellFormed
  simp only [Word.Spells, operationBits, Operation.ignoredBits, toNat_and_zero, Nat.add_zero,
    placed] at spells
  have classEqual : word.field 25 3 = 7 := by omega
  have call : word.bit 24 = true := bit_eq_of_field (by rw [Bool.toNat_true]; omega)
  have immediateRead : (word.field 0 24 : Int) = immediate := by omega
  unfold operationOf
  rw [classEqual, call, immediateRead]
  rfl

/-! ## Transfers -/

/-- The low 28 bits of a word, cut where a transfer is held. -/
theorem field_of_transfer (word : Word) :
    word.field 0 28 =
      word.field 0 12 + word.field 12 4 <<< 12 + word.field 16 4 <<< 16 + word.field 20 1 <<< 20 +
        word.field 21 1 <<< 21 + word.field 22 1 <<< 22 + word.field 23 1 <<< 23 +
        word.field 24 1 <<< 24 + word.field 25 3 <<< 25 := by
  have fields : word.field 0 28 = _ := word.field_sum 0 [12, 4, 4, 1, 1, 1, 1, 1, 3]
  simp only [Word.joinedFields, Nat.reduceAdd] at fields
  omega

/-- What the fields that all transfers share have to be. -/
structure HoldsTransfer (word : Word) (transfer : Transfer) (isLoad : Bool) : Prop where
  value : (word.field 12 4 : Int) = transfer.valueRegister
  base : (word.field 16 4 : Int) = transfer.baseRegister
  loads : word.bit 20 = isLoad
  writeBack : transfer.indexing = .before → word.bit 21 = transfer.writeBack
  sign : word.bit 23 = signFlag transfer.sign
  before : word.bit 24 = decide (transfer.indexing = .before)

theorem HoldsTransfer.transferOf_eq {transfer : Transfer} {isLoad : Bool}
    (holds : HoldsTransfer word transfer isLoad)
    (updates : transfer.indexing = .after → transfer.writeBack = true) :
    transferOf word transfer.offset = transfer := by
  rcases holds with ⟨value, base, -, writeBack, sign, before⟩
  rcases transfer with ⟨indexing, writesBack, direction, valueRegister, baseRegister, offset⟩
  simp only at value base writeBack sign before updates
  have signRead : (if word.bit 23 then OffsetSign.plus else .minus) = direction := by
    rw [sign]
    cases direction <;> rfl
  cases indexing with
  | before => simp [transferOf, before, writeBack rfl, secondRegister, firstRegister, value, base,
      signRead]
  | after => simp [transferOf, before, updates rfl, secondRegister, firstRegister, value, base,
      signRead]

/-- The fields that all transfers share, between those that differ with the size. The
bit that is ignored after the access may have any value. -/
theorem holdsTransfer_of_sum {transfer : Transfer} {isLoad : Bool}
    {low twentyTwo high free : Nat} (valueNames : IsRegister transfer.valueRegister)
    (baseNames : IsRegister transfer.baseRegister)
    (lowFits : low < 0x1000) (twentyTwoFits : twentyTwo < 2) (freeFits : free < 2)
    (sum : word.field 0 28 = low + twentyTwo <<< 22 + high <<< 25 +
      (transferBits transfer isLoad + if transfer.indexing = .after then free <<< 21 else 0)) :
    HoldsTransfer word transfer isLoad ∧ word.field 0 12 = low ∧ word.field 22 1 = twentyTwo ∧
      word.field 25 3 = high ∧ (transfer.indexing = .after → word.field 21 1 = free) := by
  have valueNumber := toNat_of_isRegister valueNames
  have baseNumber := toNat_of_isRegister baseNames
  have loadFits := isLoad.toNat_le
  have signFits := (signFlag transfer.sign).toNat_le
  have writeBackFits := transfer.writeBack.toNat_le
  have bound0 := word.field_lt 0 12
  have bound12 := word.field_lt 12 4
  have bound16 := word.field_lt 16 4
  have bound20 := word.field_lt 20 1
  have bound21 := word.field_lt 21 1
  have bound22 := word.field_lt 22 1
  have bound23 := word.field_lt 23 1
  have bound24 := word.field_lt 24 1
  have bound25 := word.field_lt 25 3
  rw [field_of_transfer] at sum
  cases indexing : transfer.indexing with
  | before =>
      simp only [transferBits, indexing, reduceCtorEq, if_false, decide_true, Bool.true_and, flag,
        placed, Bool.toNat_true] at sum
      refine ⟨⟨?_, ?_, bit_eq_of_field ?_, fun _ => bit_eq_of_field ?_, bit_eq_of_field ?_, ?_⟩,
        ?_, ?_, ?_, fun after => ?_⟩
      case refine_6 =>
        have set : word.field 24 1 = 1 := by omega
        rw [indexing]
        exact bit_eq_of_field set
      case refine_10 => cases after
      all_goals omega
  | after =>
      simp only [transferBits, indexing, reduceCtorEq, if_true, decide_false, Bool.false_and, flag,
        placed, Bool.toNat_false] at sum
      refine ⟨⟨?_, ?_, bit_eq_of_field ?_, fun before => ?_, bit_eq_of_field ?_, ?_⟩,
        ?_, ?_, ?_, fun _ => ?_⟩
      case refine_4 =>
        rw [indexing] at before
        cases before
      case refine_6 =>
        have clear : word.field 24 1 = 0 := by omega
        rw [indexing]
        exact bit_eq_of_field clear
      all_goals omega

/-! ## Words and bytes -/

/-- The low twelve bits of a long offset. -/
def longOffsetLow : Offset → Nat
  | .immediate value => placed value 0
  | .register register kind amount => placed amount 7 + placed kind.code 5 + placed register 0

theorem longOffsetBits_eq (offset : Offset) :
    longOffsetBits offset =
      longOffsetLow offset + (2 + (!offset.isImmediate).toNat) <<< 25 := by
  cases offset with
  | immediate value =>
      simp only [longOffsetBits, longOffsetLow, Offset.isImmediate, flag, Bool.toNat_true,
        Bool.not_true, Bool.toNat_false]
      omega
  | register number kind amount =>
      simp only [longOffsetBits, longOffsetLow, Offset.isImmediate, flag, Bool.toNat_true,
        Bool.not_false]
      omega

theorem longOffsetLow_lt {offset : Offset} (fits : offset.FitsLong) :
    longOffsetLow offset < 0x1000 := by
  cases offset with
  | immediate value =>
      simp only [Offset.FitsLong, Fits, Nat.reduceShiftLeft] at fits
      simp only [longOffsetLow, placed]
      omega
  | register number kind amount =>
      have code := code_lt kind
      simp only [Offset.FitsLong, IsRegister, Fits, Nat.reduceShiftLeft] at fits
      simp only [longOffsetLow, placed]
      omega

/-- A long offset is read from the low twelve bits and the bit that tells its shape. -/
theorem longOffset_eq {offset : Offset} (fits : offset.FitsLong)
    (bits : word.field 0 12 = longOffsetLow offset)
    (shape : word.bit 25 = !offset.isImmediate) :
    longOffset word = offset ∧ (offset.isImmediate = false → word.bit 4 = false) := by
  cases offset with
  | immediate value =>
      simp only [Offset.FitsLong, Fits, Nat.reduceShiftLeft] at fits
      simp only [longOffsetLow, placed] at bits
      have valueRead : (word.field 0 12 : Int) = value := by omega
      rw [longOffset, shape, valueRead]
      refine ⟨rfl, fun register => ?_⟩
      cases register
  | register number kind amount =>
      -- It is held as a register that is shifted by an amount.
      have wellFormed : (Operand.register number kind (.immediate amount)).WellFormed := fits
      have read := (shiftedRegister_eq wellFormed bits).1
      simp only [shiftedRegister, Operand.register.injEq] at read
      rcases read with ⟨numberRead, kindRead, amountRead⟩
      cases four : word.bit 4 with
      | true =>
          rw [four] at amountRead
          cases amountRead
      | false =>
          rw [four] at amountRead
          simp only [Bool.false_eq_true, if_false, ShiftAmount.immediate.injEq] at amountRead
          rw [longOffset, shape, numberRead, kindRead, amountRead]
          exact ⟨rfl, fun _ => rfl⟩

/-- The fields of a word or byte transfer, with any value for the bit that is ignored
after the access. -/
theorem holdsTransfer_of_long {moved : Transfer} {isLoad isByte : Bool} {free : Nat}
    (wellFormed : moved.WellFormed true) (freeFits : free < 2)
    (layout : word.field 0 28 = longTransferBits moved isLoad isByte +
      if moved.indexing = .after then free <<< 21 else 0) :
    HoldsTransfer word moved isLoad ∧ word.field 0 12 = longOffsetLow moved.offset ∧
      word.field 22 1 = isByte.toNat ∧
      word.field 25 3 = 2 + (!moved.offset.isImmediate).toNat ∧
      (moved.indexing = .after → word.field 21 1 = free) := by
  rcases wellFormed with ⟨valueNames, baseNames, -, fits⟩
  have byteFits := isByte.toNat_le
  simp only [longTransferBits, longOffsetBits_eq, flag] at layout
  exact holdsTransfer_of_sum valueNames baseNames (longOffsetLow_lt fits) (by omega) freeFits
    (by omega)

theorem operationOf_of_longTransfer {moved : Transfer} {isLoad isByte : Bool}
    (wellFormed : moved.WellFormed true)
    (layout : word.field 0 28 =
      longTransferBits moved isLoad isByte + (word &&& moved.ignoredBits true).toNat) :
    operationOf word =
      .ok (if isLoad then .load (if isByte then .byte else .word) moved
        else .store (if isByte then .byte else .word) moved) := by
  rw [Transfer.toNat_and_ignoredBits] at layout
  rcases holdsTransfer_of_long wellFormed (word.field_lt 21 1) layout with
    ⟨holds, low, byte, top, -⟩
  rcases wellFormed with ⟨-, -, updates, fits⟩
  have cut25 : word.field 25 3 = word.field 25 1 + word.field 26 2 <<< 1 :=
    word.field_append 25 1 2
  have bound := word.field_lt 25 1
  have shapeFits := (!moved.offset.isImmediate).toNat_le
  have shape : word.bit 25 = !moved.offset.isImmediate := bit_eq_of_field (by omega)
  rcases longOffset_eq fits low shape with ⟨offsetRead, plain⟩
  have found : operationOf word = .ok (transfer word) := by
    unfold operationOf
    rw [top]
    cases immediate : moved.offset.isImmediate with
    | true => rfl
    | false =>
        change (if word.bit 4 = true then _ else _) = _
        rw [plain immediate]
        rfl
  rw [found, transfer_eq, offsetRead, holds.transferOf_eq updates, holds.loads,
    bit_eq_of_field byte]

/-! ## The other sizes -/

/-- The low twelve bits of a short offset, with a value for the half that a register
leaves free. -/
def shortOffsetLow (free : Nat) : Offset → Nat
  | .immediate value => placed (value / 0x10) 8 + placed (value % 0x10) 0
  | .register register _ _ => free <<< 8 + placed register 0

theorem shortOffsetBits_eq (free : Nat) (offset : Offset) :
    shortOffsetBits offset + (if offset.isImmediate then 0 else free <<< 8) =
      shortOffsetLow free offset + offset.isImmediate.toNat <<< 22 := by
  cases offset with
  | immediate value =>
      simp only [shortOffsetBits, shortOffsetLow, Offset.isImmediate, flag, Bool.toNat_true,
        if_true]
      omega
  | register number kind amount =>
      simp only [shortOffsetBits, shortOffsetLow, Offset.isImmediate, Bool.toNat_false,
        Bool.false_eq_true, if_false]
      omega

/-- A short offset is read from the two halves of its byte, which enclose the type
of the transfer. -/
theorem shortOffset_eq {offset : Offset} {type free : Nat} (fits : offset.FitsShort)
    (typeFits : type < 4)
    (bits : word.field 0 12 = 1 <<< 7 + type <<< 5 + 1 <<< 4 + shortOffsetLow free offset)
    (shape : word.bit 22 = offset.isImmediate) :
    shortOffset word = offset ∧ word.field 5 2 = type ∧
      (word.bit 7 = true ∧ word.bit 4 = true) ∧
        (offset.isImmediate = false → word.field 8 4 = free) := by
  have bound0 := word.field_lt 0 4
  have bound4 := word.field_lt 4 1
  have bound5 := word.field_lt 5 2
  have bound7 := word.field_lt 7 1
  have bound8 := word.field_lt 8 4
  rw [field_of_shifted] at bits
  cases offset with
  | immediate value =>
      simp only [Offset.FitsShort, Fits, Nat.reduceShiftLeft] at fits
      simp only [shortOffsetLow, placed] at bits
      have valueRead : ((0x10 * word.field 8 4 + word.field 0 4 : Nat) : Int) = value := by omega
      have set7 : word.field 7 1 = 1 := by omega
      have set4 : word.field 4 1 = 1 := by omega
      have read : shortOffset word = .immediate value := by
        rw [shortOffset, shape, valueRead]
        rfl
      refine ⟨read, by omega, ⟨bit_eq_of_field set7, bit_eq_of_field set4⟩, ?_⟩
      intro register
      cases register
  | register number kind amount =>
      rcases fits with ⟨names, rfl, rfl⟩
      simp only [IsRegister] at names
      simp only [shortOffsetLow, placed] at bits
      have numberRead : (word.field 0 4 : Int) = number := by omega
      have set7 : word.field 7 1 = 1 := by omega
      have set4 : word.field 4 1 = 1 := by omega
      refine ⟨?_, by omega, ⟨bit_eq_of_field set7, bit_eq_of_field set4⟩, fun _ => by omega⟩
      rw [shortOffset, shape, numberRead]
      rfl

theorem shortOffsetLow_lt {offset : Offset} {type free : Nat} (fits : offset.FitsShort)
    (typeFits : type < 4) (freeFits : free < 16) :
    1 <<< 7 + type <<< 5 + 1 <<< 4 + shortOffsetLow free offset < 0x1000 := by
  cases offset with
  | immediate value =>
      simp only [Offset.FitsShort, Fits, Nat.reduceShiftLeft] at fits
      simp only [shortOffsetLow, placed]
      omega
  | register number kind amount =>
      have names := fits.1
      simp only [IsRegister] at names
      simp only [shortOffsetLow, placed]
      omega

/-- The fields of an extra transfer, with any value for the bits that are ignored. -/
theorem holdsTransfer_of_short {moved : Transfer} {isLoad : Bool} {type freeHalf free : Nat}
    (wellFormed : moved.WellFormed false) (typeFits : type < 4) (freeHalfFits : freeHalf < 16)
    (freeFits : free < 2)
    (layout : word.field 0 28 = shortTransferBits moved isLoad type +
      ((if moved.indexing = .after then free <<< 21 else 0) +
        if moved.offset.isImmediate then 0 else freeHalf <<< 8)) :
    HoldsTransfer word moved isLoad ∧
      word.field 0 12 = 1 <<< 7 + type <<< 5 + 1 <<< 4 + shortOffsetLow freeHalf moved.offset ∧
      word.field 22 1 = moved.offset.isImmediate.toNat ∧ word.field 25 3 = 0 ∧
      (moved.indexing = .after → word.field 21 1 = free) := by
  rcases wellFormed with ⟨valueNames, baseNames, -, fits⟩
  have shapeFits := moved.offset.isImmediate.toNat_le
  have offsetBits := shortOffsetBits_eq freeHalf moved.offset
  simp only [shortTransferBits, placed_natCast, flag, Bool.toNat_true] at layout
  exact holdsTransfer_of_sum valueNames baseNames (shortOffsetLow_lt fits typeFits freeHalfFits)
    (by omega) freeFits (by omega)

theorem operationOf_of_shortTransfer {moved : Transfer} {isLoad : Bool} {type : Nat}
    (wellFormed : moved.WellFormed false) (typeFits : type < 4)
    (layout : word.field 0 28 =
      shortTransferBits moved isLoad type + (word &&& moved.ignoredBits false).toNat) :
    operationOf word = extraTransfer word ∧ word.field 5 2 = type ∧ word.bit 20 = isLoad ∧
      transferOf word (shortOffset word) = moved := by
  rw [Transfer.toNat_and_ignoredBits, Bool.false_or] at layout
  rcases holdsTransfer_of_short wellFormed typeFits (word.field_lt 8 4) (word.field_lt 21 1) layout
    with ⟨holds, low, immediate, classEqual, -⟩
  rcases wellFormed with ⟨-, -, updates, fits⟩
  rcases shortOffset_eq fits typeFits low (bit_eq_of_field immediate) with
    ⟨offsetRead, typeRead, extra, -⟩
  refine ⟨?_, typeRead, holds.loads, ?_⟩
  · rw [operationOf_registerClass classEqual, registerClass_of_extra extra]
  · rw [offsetRead, holds.transferOf_eq updates]

/-- The operations of the extra transfers, by the type and the direction that a word gives. -/
def extraOperations (moved : Transfer) : List (Nat × Bool × Operation) :=
  [(1, false, .store .halfWord moved), (1, true, .load .unsignedHalfWord moved),
    (2, false, .load .doubleWord moved), (2, true, .load .signedByte moved),
    (3, false, .store .doubleWord moved), (3, true, .load .signedHalfWord moved)]

theorem extraTransfer_eq {type : Nat} {isLoad : Bool} {moved : Transfer} {operation : Operation}
    (typeRead : word.field 5 2 = type) (loads : word.bit 20 = isLoad)
    (movedRead : transferOf word (shortOffset word) = moved)
    (named : (type, isLoad, operation) ∈ extraOperations moved) :
    extraTransfer word = .ok operation := by
  subst movedRead
  unfold extraTransfer
  dsimp only
  rw [typeRead, loads]
  simp only [extraOperations, List.mem_cons, Prod.mk.injEq, List.not_mem_nil, or_false] at named
  rcases named with ⟨rfl, rfl, rfl⟩ | ⟨rfl, rfl, rfl⟩ | ⟨rfl, rfl, rfl⟩ | ⟨rfl, rfl, rfl⟩ |
    ⟨rfl, rfl, rfl⟩ | ⟨rfl, rfl, rfl⟩ <;> rfl

/-- An extra transfer is decoded to the operation that its type and direction name. -/
theorem operationOf_of_extra {moved : Transfer} {isLoad : Bool} {type : Nat}
    {operation : Operation} (wellFormed : moved.WellFormed false)
    (layout : word.field 0 28 =
      shortTransferBits moved isLoad type + (word &&& moved.ignoredBits false).toNat)
    (named : (type, isLoad, operation) ∈ extraOperations moved) :
    operationOf word = .ok operation := by
  have typeFits : type < 4 := by
    simp only [extraOperations, List.mem_cons, Prod.mk.injEq, List.not_mem_nil, or_false] at named
    omega
  rcases operationOf_of_shortTransfer wellFormed typeFits layout with
    ⟨found, typeRead, loads, movedRead⟩
  rw [found]
  exact extraTransfer_eq typeRead loads movedRead named

theorem operationOf_of_load {size : LoadSize} {moved : Transfer}
    (wellFormed : (Operation.load size moved).WellFormed)
    (spells : word.Spells (.load size moved)) :
    operationOf word = .ok (.load size moved) := by
  cases size with
  | word => exact @operationOf_of_longTransfer word moved true false wellFormed spells
  | byte => exact @operationOf_of_longTransfer word moved true true wellFormed spells
  | doubleWord =>
      exact @operationOf_of_extra word moved false 2 _ wellFormed spells (by simp [extraOperations])
  | unsignedHalfWord =>
      exact @operationOf_of_extra word moved true 1 _ wellFormed spells (by simp [extraOperations])
  | signedByte =>
      exact @operationOf_of_extra word moved true 2 _ wellFormed spells (by simp [extraOperations])
  | signedHalfWord =>
      exact @operationOf_of_extra word moved true 3 _ wellFormed spells (by simp [extraOperations])

theorem operationOf_of_store {size : StoreSize} {moved : Transfer}
    (wellFormed : (Operation.store size moved).WellFormed)
    (spells : word.Spells (.store size moved)) :
    operationOf word = .ok (.store size moved) := by
  cases size with
  | word => exact @operationOf_of_longTransfer word moved false false wellFormed spells
  | byte => exact @operationOf_of_longTransfer word moved false true wellFormed spells
  | doubleWord =>
      exact @operationOf_of_extra word moved false 3 _ wellFormed spells (by simp [extraOperations])
  | halfWord =>
      exact @operationOf_of_extra word moved false 1 _ wellFormed spells (by simp [extraOperations])

/-! ## Words -/

/-- A word that spells a well-formed operation is decoded to it. -/
theorem operationOf_of_spells {operation : Operation} (wellFormed : operation.WellFormed)
    (spells : word.Spells operation) : operationOf word = .ok operation := by
  cases operation with
  | combine operator destination source operand setsFlags =>
      exact operationOf_of_combine wellFormed spells
  | compare source operand => exact operationOf_of_compare wellFormed spells
  | move inverted destination operand setsFlags => exact operationOf_of_move wellFormed spells
  | moveHalf half destination immediate => exact operationOf_of_moveHalf wellFormed spells
  | branch offset link => exact operationOf_of_branch wellFormed spells
  | branchExchange register => exact operationOf_of_branchExchange wellFormed spells
  | load size moved => exact operationOf_of_load wellFormed spells
  | store size moved => exact operationOf_of_store wellFormed spells
  | supervisorCall immediate => exact operationOf_of_supervisorCall wellFormed spells
  | undefined => exact wellFormed.elim

end Arm32.Instruction
