import Arm32.Instruction.Encode
import Arm32.Proofs.Decoding.Exactness

namespace Arm32

/-! The layout of words. A word that decoding accepts is the sum of the fields of
what it decodes to, each at its place, and of the bits that decoding does not look
at. The main statement is about operations, which have the low 28 bits of a word. -/

/-! ## Ignored bits -/

/-- The bits of the word of a transfer that it does not depend on. A base that is
written back in any case needs no bit to say so, and a plain register leaves the
high half of a short offset free. -/
def Transfer.ignoredBits (transfer : Transfer) (long : Bool) : Word :=
  (if transfer.indexing = .after then 0x00200000 else 0) |||
    (if long || transfer.offset.isImmediate then 0 else 0x00000F00)

/-- The bits of the word of an operation that it does not depend on: the source of
a move, the destination of a comparison, and what a transfer leaves free. -/
def Operation.ignoredBits : Operation → Word
  | .move _ _ _ _ => 0x000F0000
  | .compare _ _ => 0x0000F000
  | .load size transfer => transfer.ignoredBits size.isLong
  | .store size transfer => transfer.ignoredBits size.isLong
  | .combine _ _ _ _ _ | .moveHalf _ _ _ | .branch _ _ | .branchExchange _
  | .supervisorCall _ | .undefined => 0

theorem Transfer.toNat_and_ignoredBits (word : Word) (transfer : Transfer) (long : Bool) :
    (word &&& transfer.ignoredBits long).toNat =
      (if transfer.indexing = .after then word.field 21 1 <<< 21 else 0) +
        (if long || transfer.offset.isImmediate then 0 else word.field 8 4 <<< 8) := by
  have writeBackBit : (word &&& 0x00200000).toNat = word.field 21 1 <<< 21 :=
    word.toNat_and_mask rfl
  have offsetBits : (word &&& 0x00000F00).toNat = word.field 8 4 <<< 8 :=
    word.toNat_and_mask rfl
  have bothBits : (word &&& 0x00200F00).toNat = word.field 21 1 <<< 21 + word.field 8 4 <<< 8 := by
    have split : word &&& 0x00200F00 = (word &&& 0x00200000) + (word &&& 0x00000F00) := by
      rw [BitVec.add_eq_or_of_and_eq_zero, ← BitVec.and_or_distrib_left]
      · rfl
      · rw [BitVec.and_assoc, BitVec.and_comm 0x00200000, BitVec.and_assoc]
        simp
    have low := word.field_lt 21 1
    have high := word.field_lt 8 4
    rw [split, BitVec.toNat_add, writeBackBit, offsetBits]
    omega
  unfold ignoredBits
  split <;> split
  · simpa using writeBackBit
  · exact bothBits
  · simp
  · simpa using offsetBits

namespace Instruction

variable {word : Word}

/-! ## Fields at their places -/

theorem placed_natCast (value low : Nat) : placed value low = value <<< low :=
  rfl

theorem flag_bit (word : Word) (index low : Nat) :
    flag (word.bit index) low = word.field index 1 <<< low := by
  have bound : word.field index 1 < 2 := word.field_lt index 1
  have values : word.field index 1 = 0 ∨ word.field index 1 = 1 := by omega
  rcases values with equal | equal <;> simp [flag, Word.bit, equal]

theorem code_shiftKindOf (word : Word) : (shiftKindOf word).code = word.field 5 2 := by
  have bound : word.field 5 2 < 4 := word.field_lt 5 2
  have codes : ∀ code < 4, (ShiftKind.ofCode code).code = code := by decide
  exact codes _ bound

theorem byte_of_rotatedImmediate (word : Word) (rotation : Int) :
    (Word.rotateRight (Word.rotateRight (word.field 0 8) rotation).toInt (-rotation)).toNat =
      word.field 0 8 := by
  have bound : word.field 0 8 < 0x100 := word.field_lt 0 8
  have reduced := Word.toNat_ofInt (word.field 0 8)
  rw [Word.rotateRight_rotateRight, Int.add_right_neg, Word.rotateRight_zero]
  omega

theorem operandBits_operandOf
    (plain : word.bit 25 = false → ¬ (word.bit 7 = true ∧ word.bit 4 = true)) :
    operandBits (operandOf word) = word.field 25 1 <<< 25 + word.field 0 12 := by
  have immediateBit := flag_bit word 25 25
  unfold operandOf
  cases immediate : word.bit 25 with
  | true =>
      have half : ((2 * word.field 8 4 : Nat) : Int) / 2 = word.field 8 4 := by omega
      rw [immediate] at immediateBit
      simp only [if_true, rotatedImmediate, operandBits, byte_of_rotatedImmediate, half,
        placed_natCast, immediateBit]
      simp only [Word.field, Nat.reduceShiftLeft]
      omega
  | false =>
      have unshifted := plain immediate
      rw [immediate] at immediateBit
      simp only [Bool.false_eq_true, if_false, shiftedRegister, operandBits, code_shiftKindOf,
        placed_natCast]
      cases amount : word.bit 4 with
      | true =>
          have clear := flag_bit word 7 7
          have set := flag_bit word 4 4
          rw [amount] at unshifted set
          rw [Bool.eq_false_iff.mpr fun high => unshifted ⟨high, rfl⟩] at clear
          simp only [if_true, shiftAmountBits, placed_natCast]
          simp only [Word.field, flag, Bool.toNat_true, Bool.toNat_false,
            Nat.reduceShiftLeft] at *
          omega
      | false =>
          have clear := flag_bit word 4 4
          rw [amount] at clear
          simp only [Bool.false_eq_true, if_false, shiftAmountBits, placed_natCast]
          simp only [Word.field, flag, Bool.toNat_false, Nat.reduceShiftLeft] at *
          omega

end Instruction

/-! ## Operations at their places -/

/-- The low 28 bits of a word are an operation, but for the bits that it ignores. -/
def Word.Spells (word : Word) (operation : Operation) : Prop :=
  word.field 0 28 =
    Instruction.operationBits operation + (word &&& operation.ignoredBits).toNat

namespace Instruction

variable {word : Word}

theorem toNat_and_zero (word : Word) : (word &&& 0).toNat = 0 := by
  simp

/-- The bits that a move ignores. -/
theorem toNat_and_first (word : Word) :
    (word &&& 0x000F0000).toNat = word.field 16 4 <<< 16 :=
  word.toNat_and_mask rfl

/-- The bits that a comparison ignores. -/
theorem toNat_and_second (word : Word) :
    (word &&& 0x0000F000).toNat = word.field 12 4 <<< 12 :=
  word.toNat_and_mask rfl

theorem spells_combine {operator : DataOperator} (classEqual : word.field 26 2 = 0)
    (plain : word.bit 25 = false → ¬ (word.bit 7 = true ∧ word.bit 4 = true))
    (opcode : word.field 21 4 = operatorCode operator) :
    word.Spells (.combine operator (secondRegister word) (firstRegister word) (operandOf word)
      (word.bit 20)) := by
  simp only [Word.Spells, operationBits, Operation.ignoredBits, toNat_and_zero, firstRegister,
    secondRegister, placed_natCast, flag_bit, operandBits_operandOf plain, ← opcode]
  simp only [Word.field, Nat.reduceShiftLeft] at *
  omega

theorem spells_move {inverted : Bool} (classEqual : word.field 26 2 = 0)
    (plain : word.bit 25 = false → ¬ (word.bit 7 = true ∧ word.bit 4 = true))
    (opcode : word.field 21 4 = if inverted then 0xF else 0xD) :
    word.Spells (.move inverted (secondRegister word) (operandOf word) (word.bit 20)) := by
  have placedOpcode : placed (if inverted then 0xF else 0xD) 21 = word.field 21 4 <<< 21 := by
    rw [opcode]
    cases inverted <;> rfl
  simp only [Word.Spells, operationBits, Operation.ignoredBits, toNat_and_first, secondRegister,
    placed_natCast, flag_bit, operandBits_operandOf plain, placedOpcode]
  simp only [Word.field, Nat.reduceShiftLeft] at *
  omega

theorem spells_compare (classEqual : word.field 26 2 = 0)
    (plain : word.bit 25 = false → ¬ (word.bit 7 = true ∧ word.bit 4 = true))
    (opcode : word.field 21 4 = 0xA) (setsFlags : word.bit 20 = true) :
    word.Spells (.compare (firstRegister word) (operandOf word)) := by
  have flagBit := flag_bit word 20 20
  have placedOpcode : placed 0xA 21 = word.field 21 4 <<< 21 := by
    rw [opcode]
    rfl
  rw [setsFlags] at flagBit
  simp only [Word.Spells, operationBits, Operation.ignoredBits, toNat_and_second, firstRegister,
    placed_natCast, flagBit, operandBits_operandOf plain, placedOpcode]
  simp only [Word.field, Nat.reduceShiftLeft] at *
  omega

theorem spells_of_dataProcessing {operation : Operation} (classEqual : word.field 26 2 = 0)
    (plain : word.bit 25 = false → ¬ (word.bit 7 = true ∧ word.bit 4 = true))
    (decoded : dataProcessing word = .ok operation) : word.Spells operation := by
  unfold dataProcessing at decoded
  dsimp only at decoded
  split at decoded
  case h_1 opcode =>
    cases decoded
    exact spells_combine classEqual plain opcode
  case h_2 opcode =>
    cases decoded
    exact spells_combine classEqual plain opcode
  case h_3 opcode =>
    cases decoded
    exact spells_combine classEqual plain opcode
  case h_4 opcode =>
    cases decoded
    exact spells_combine classEqual plain opcode
  case h_5 opcode =>
    split at decoded
    case isTrue setsFlags =>
      cases decoded
      exact spells_compare classEqual plain opcode setsFlags
    case isFalse => cases decoded
  case h_6 opcode =>
    cases decoded
    exact spells_combine classEqual plain opcode
  case h_7 opcode =>
    cases decoded
    exact spells_move classEqual plain opcode
  case h_8 opcode =>
    cases decoded
    exact spells_move classEqual plain opcode
  case h_9 => cases decoded

theorem spells_wideMove (classEqual : word.field 25 3 = 1)
    (wide : word.field 23 2 = 2 ∧ word.field 20 2 = 0) : word.Spells (wideMove word) := by
  have half : flag ((if word.bit 22 then Half.high else Half.low) = .high) 22 =
      word.field 22 1 <<< 22 := by
    rw [← flag_bit]
    cases word.bit 22 <;> rfl
  have high : ((0x1000 * word.field 16 4 + word.field 0 12 : Nat) : Int) / 0x1000 =
      word.field 16 4 := by
    have bound := word.field_lt 0 12
    omega
  have low : ((0x1000 * word.field 16 4 + word.field 0 12 : Nat) : Int) % 0x1000 =
      word.field 0 12 := by
    have bound := word.field_lt 0 12
    omega
  simp only [Word.Spells, wideMove, operationBits, Operation.ignoredBits, toNat_and_zero,
    secondRegister, half, high, low, placed_natCast]
  simp only [Word.field, flag, Bool.toNat_true, Nat.reduceShiftLeft] at *
  omega

/-! ## Transfers at their places -/

@[simp] theorem offset_transferOf (word : Word) (offset : Offset) :
    (transferOf word offset).offset = offset :=
  rfl

/-- The fields that all transfers share, with the ignored one among them. -/
theorem transferBits_transferOf (word : Word) (offset : Offset) :
    transferBits (transferOf word offset) (word.bit 20) +
        (if (transferOf word offset).indexing = .after then word.field 21 1 <<< 21 else 0) =
      word.field 23 2 <<< 23 + word.field 20 2 <<< 20 + word.field 12 8 <<< 12 := by
  have before := flag_bit word 24 24
  have sign : flag (signFlag (if word.bit 23 then .plus else .minus)) 23 =
      word.field 23 1 <<< 23 := by
    rw [← flag_bit]
    cases word.bit 23 <;> rfl
  have writeBack := flag_bit word 21 21
  simp only [transferBits, transferOf, firstRegister, secondRegister, placed_natCast, sign,
    flag_bit]
  by_cases indexing : word.bit 24 = true
  · rw [indexing] at before
    simp only [indexing, if_true, decide_true, Bool.not_true, Bool.false_or, Bool.true_and,
      before, writeBack, reduceCtorEq, if_false]
    simp only [Word.field, Nat.reduceShiftLeft]
    omega
  · rw [Bool.not_eq_true] at indexing
    rw [indexing] at before
    simp only [indexing, Bool.false_eq_true, if_false, if_true, reduceCtorEq, decide_false,
      Bool.false_and]
    simp only [Word.field, flag, Bool.toNat_false, Nat.reduceShiftLeft] at *
    omega

theorem longOffsetBits_longOffset (plain : word.bit 25 = true → word.bit 4 = false) :
    longOffsetBits (longOffset word) =
      1 <<< 26 + word.field 25 1 <<< 25 + word.field 0 12 := by
  have registerBit := flag_bit word 25 25
  unfold longOffset
  cases register : word.bit 25 with
  | true =>
      have clear := flag_bit word 4 4
      rw [register] at registerBit
      rw [plain register] at clear
      simp only [if_true, longOffsetBits, code_shiftKindOf, placed_natCast, registerBit]
      simp only [Word.field, flag, Bool.toNat_true, Bool.toNat_false, Nat.reduceShiftLeft] at *
      omega
  | false =>
      rw [register] at registerBit
      simp only [Bool.false_eq_true, if_false, longOffsetBits, placed_natCast]
      simp only [Word.field, flag, Bool.toNat_true, Bool.toNat_false, Nat.reduceShiftLeft] at *
      omega

theorem shortOffsetBits_shortOffset (word : Word) :
    shortOffsetBits (shortOffset word) +
        (if (shortOffset word).isImmediate then 0 else word.field 8 4 <<< 8) =
      word.field 22 1 <<< 22 + word.field 8 4 <<< 8 + word.field 0 4 := by
  have immediateBit := flag_bit word 22 22
  unfold shortOffset
  cases immediate : word.bit 22 with
  | true =>
      have bound : word.field 0 4 < 0x10 := word.field_lt 0 4
      have high : ((0x10 * word.field 8 4 + word.field 0 4 : Nat) : Int) / 0x10 =
          word.field 8 4 := by omega
      have low : ((0x10 * word.field 8 4 + word.field 0 4 : Nat) : Int) % 0x10 =
          word.field 0 4 := by omega
      rw [immediate] at immediateBit
      simp only [if_true, shortOffsetBits, Offset.isImmediate, high, low, placed_natCast,
        immediateBit]
      omega
  | false =>
      rw [immediate] at immediateBit
      simp only [Bool.false_eq_true, if_false, shortOffsetBits, Offset.isImmediate, placed_natCast]
      simp only [flag, Bool.toNat_false, Nat.reduceShiftLeft] at immediateBit
      omega

theorem longTransferBits_transferOf (classEqual : word.field 26 2 = 1)
    (plain : word.bit 25 = true → word.bit 4 = false) :
    word.field 0 28 =
      longTransferBits (transferOf word (longOffset word)) (word.bit 20) (word.bit 22) +
        (word &&& (transferOf word (longOffset word)).ignoredBits true).toNat := by
  have shared := transferBits_transferOf word (longOffset word)
  have offset := longOffsetBits_longOffset plain
  rw [Transfer.toNat_and_ignoredBits]
  simp only [longTransferBits, flag_bit, Bool.true_or, if_true, offset_transferOf]
  generalize (if (transferOf word (longOffset word)).indexing = .after then
    word.field 21 1 <<< 21 else 0) = ignored at shared ⊢
  simp only [Word.field, Nat.reduceShiftLeft] at *
  omega

theorem spells_transfer (classEqual : word.field 26 2 = 1)
    (plain : word.bit 25 = true → word.bit 4 = false) : word.Spells (transfer word) := by
  have layout := longTransferBits_transferOf classEqual plain
  rw [transfer_eq]
  cases loads : word.bit 20 <;> cases byte : word.bit 22 <;> rw [loads, byte] at layout <;>
    exact layout

/-- The fields of an extra transfer, one next to the other. -/
theorem field_of_extra (word : Word) :
    word.field 0 28 =
      word.field 0 4 + word.field 4 1 <<< 4 + word.field 5 2 <<< 5 + word.field 7 1 <<< 7 +
        word.field 8 4 <<< 8 + word.field 12 8 <<< 12 + word.field 20 2 <<< 20 +
        word.field 22 1 <<< 22 + word.field 23 2 <<< 23 + word.field 25 3 <<< 25 := by
  have fields : word.field 0 28 = _ := word.field_sum 0 [4, 1, 2, 1, 4, 8, 2, 1, 2, 3]
  simp only [Word.joinedFields, Nat.reduceAdd] at fields
  omega

theorem shortTransferBits_transferOf (classEqual : word.field 25 3 = 0)
    (extra : word.bit 7 = true ∧ word.bit 4 = true) :
    word.field 0 28 =
      shortTransferBits (transferOf word (shortOffset word)) (word.bit 20) (word.field 5 2) +
        (word &&& (transferOf word (shortOffset word)).ignoredBits false).toNat := by
  have shared := transferBits_transferOf word (shortOffset word)
  have offset := shortOffsetBits_shortOffset word
  have seven := flag_bit word 7 7
  have four := flag_bit word 4 4
  rw [extra.1] at seven
  rw [extra.2] at four
  rw [Transfer.toNat_and_ignoredBits]
  simp only [shortTransferBits, seven, four, placed_natCast, Bool.false_or, offset_transferOf]
  generalize (if (transferOf word (shortOffset word)).indexing = .after then
    word.field 21 1 <<< 21 else 0) = ignored at shared ⊢
  generalize (if (shortOffset word).isImmediate then 0 else word.field 8 4 <<< 8) = free
    at offset ⊢
  rw [field_of_extra, classEqual]
  omega

theorem spells_of_extraTransfer {operation : Operation} (classEqual : word.field 25 3 = 0)
    (extra : word.bit 7 = true ∧ word.bit 4 = true)
    (decoded : extraTransfer word = .ok operation) : word.Spells operation := by
  have layout := shortTransferBits_transferOf classEqual extra
  unfold extraTransfer at decoded
  dsimp only at decoded
  split at decoded
  case h_7 => cases decoded
  all_goals
    rename_i type loads
    cases decoded
    rw [type, loads] at layout
    exact layout

/-! ## Words at their places -/

/-- The low 28 bits of a word, cut where a branch or a call is held. -/
theorem field_of_count (word : Word) :
    word.field 0 28 =
      word.field 0 24 + word.field 24 1 <<< 24 + word.field 25 3 <<< 25 := by
  have fields : word.field 0 28 = _ := word.field_sum 0 [24, 1, 3]
  simp only [Word.joinedFields, Nat.reduceAdd] at fields
  omega

theorem spells_branch (classEqual : word.field 25 3 = 5) : word.Spells (branch word) := by
  have bound := word.field_lt 0 24
  have counted : (4 * toSigned (word.field 0 24) 24 + fetchAhead - fetchAhead) / 4 % 0x1000000 =
      word.field 0 24 := by
    simp only [toSigned_eq, Int.bmod, Nat.reduceShiftLeft] at bound ⊢
    omega
  have layout := field_of_count word
  have five : placed 5 25 = 5 <<< 25 := rfl
  simp only [Word.Spells, branch, operationBits, Operation.ignoredBits, toNat_and_zero, counted,
    placed_natCast, flag_bit, five]
  omega

theorem spells_branchExchange (exchange : word.field 4 24 = 0x12FFF1) :
    word.Spells (.branchExchange (word.field 0 4)) := by
  have layout : word.field 0 28 = word.field 0 4 + word.field 4 24 <<< 4 := word.field_append 0 4 24
  have pattern : placed 0x12FFF1 4 = 0x12FFF1 <<< 4 := rfl
  simp only [Word.Spells, operationBits, Operation.ignoredBits, toNat_and_zero, placed_natCast,
    pattern]
  omega

theorem spells_supervisorCall (classEqual : word.field 25 3 = 7) (call : word.bit 24 = true) :
    word.Spells (.supervisorCall (word.field 0 24)) := by
  have layout := field_of_count word
  have fifteen : placed 0xF 24 = 0xF <<< 24 := rfl
  rw [word.bit_eq_true_iff] at call
  simp only [Word.Spells, operationBits, Operation.ignoredBits, toNat_and_zero, placed_natCast,
    fifteen]
  omega

theorem upper_of_class {number : Nat} (classEqual : word.field 25 3 = number) :
    word.field 26 2 = number / 2 := by
  have split : word.field 25 3 = word.field 25 1 + word.field 26 2 <<< 1 :=
    word.field_append 25 1 2
  have bound : word.field 25 1 < 2 := word.field_lt 25 1
  omega

theorem spells_of_registerClass {operation : Operation} (classEqual : word.field 25 3 = 0)
    (decoded : registerClass word = .ok operation) : word.Spells operation := by
  unfold registerClass at decoded
  split at decoded
  case isTrue exchange =>
    cases decoded
    exact spells_branchExchange exchange
  case isFalse =>
    split at decoded
    case isTrue extra =>
      exact spells_of_extraTransfer classEqual (Bool.and_eq_true _ _ ▸ extra) decoded
    case isFalse plain =>
      rw [Bool.and_eq_true] at plain
      exact spells_of_dataProcessing (upper_of_class classEqual) (fun _ => plain) decoded

theorem spells_of_immediateClass {operation : Operation} (classEqual : word.field 25 3 = 1)
    (decoded : immediateClass word = .ok operation) : word.Spells operation := by
  unfold immediateClass at decoded
  split at decoded
  case isTrue wide =>
    cases decoded
    exact spells_wideMove classEqual wide
  case isFalse =>
    refine spells_of_dataProcessing (upper_of_class classEqual) (fun register => ?_) decoded
    rw [bit_of_class classEqual] at register
    cases register

/-- What a word is decoded to is spelled by the word. -/
theorem spells_of_operationOf {operation : Operation} (decoded : operationOf word = .ok operation) :
    word.Spells operation := by
  unfold operationOf at decoded
  split at decoded
  case h_1 classEqual => exact spells_of_registerClass classEqual decoded
  case h_2 classEqual => exact spells_of_immediateClass classEqual decoded
  case h_3 classEqual =>
    cases decoded
    refine spells_transfer (upper_of_class classEqual) fun register => ?_
    rw [bit_of_class classEqual] at register
    cases register
  case h_4 classEqual =>
    split at decoded
    case isTrue => cases decoded
    case isFalse clear =>
      cases decoded
      exact spells_transfer (upper_of_class classEqual) fun _ => Bool.eq_false_iff.mpr clear
  case h_5 classEqual =>
    cases decoded
    exact spells_branch classEqual
  case h_6 classEqual =>
    split at decoded
    case isTrue call =>
      cases decoded
      exact spells_supervisorCall classEqual call
    case isFalse => cases decoded
  case h_7 => cases decoded

end Instruction

end Arm32
