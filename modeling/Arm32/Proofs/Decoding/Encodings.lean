import Arm32.Proofs.Decoding.WellFormed
import Arm32.Proofs.Word.Bits

namespace Arm32

/-! The encodings of instructions. Each encoding is a pattern on the bits of a
word, written down without regard to the order in which decoding asks for them.
The patterns do not overlap, and decoding accepts exactly the words that match
one of them under a condition that exists. -/

namespace Word

/-! ## Bits -/

theorem extractLsb_eq_iff (word : Word) (high low : Nat) (bits : BitVec (high - low + 1)) :
    word.extractLsb high low = bits ↔ word.field low (high - low + 1) = bits.toNat := by
  rw [← BitVec.toNat_inj, BitVec.extractLsb_toNat, field, Nat.shiftRight_eq_div_pow,
    Nat.one_shiftLeft, Nat.one_shiftLeft]

theorem getLsbD_eq_bit (word : Word) (index : Nat) : word.getLsbD index = word.bit index := by
  change word.toNat.testBit index = word.bit index
  rw [Nat.testBit_eq_decide_div_mod_eq, bit, field, Nat.one_shiftLeft]
  rfl

theorem bit_eq_true_iff (word : Word) (index : Nat) :
    word.bit index = true ↔ word.field index 1 = 1 := by
  simp [bit]

/-- A mask of 24 bits above the lowest four leaves one field. -/
theorem toNat_and_exchangeMask (word : Word) :
    (word &&& 0x0FFFFFF0).toNat = 0x10 * word.field 4 24 := by
  have selected : (word &&& 0x0FFFFFF0).toNat = word.field 4 24 <<< 4 := word.toNat_and_mask rfl
  omega

theorem and_exchangeMask_eq_iff (word : Word) :
    word &&& 0x0FFFFFF0 = 0x012FFF10 ↔ word.field 4 24 = 0x12FFF1 := by
  rw [← BitVec.toNat_inj, toNat_and_exchangeMask]
  change 0x10 * word.field 4 24 = 0x012FFF10 ↔ _
  omega

end Word

/-! ## Patterns -/

/-- The encodings that have a meaning. Data operations and comparisons have one
for an immediate second operand and one for a register, and so have the offsets
of word and byte transfers. -/
inductive Encoding where
  | branch
  | wideMove
  | immediateData
  | immediateComparison
  | branchExchange
  | extraTransfer
  | registerData
  | registerComparison
  | immediateTransfer
  | registerTransfer
  | supervisorCall
deriving DecidableEq, Repr

namespace Encoding

/-- The opcode is that of an operation which writes a register. -/
def HasWritingOpcode (word : Word) : Prop :=
  word.extractLsb 24 21 = 0b0000 ∨ word.extractLsb 24 21 = 0b0010 ∨
    word.extractLsb 24 21 = 0b0100 ∨ word.extractLsb 24 21 = 0b0101 ∨
    word.extractLsb 24 21 = 0b1100 ∨ word.extractLsb 24 21 = 0b1101 ∨
    word.extractLsb 24 21 = 0b1111

/-- The opcode is that of a comparison, and the flags are set. -/
def HasComparingOpcode (word : Word) : Prop :=
  word.extractLsb 24 21 = 0b1010 ∧ word.getLsbD 20 = true

/-- The bits by which extra transfers are told from data operations. -/
def HasExtraBits (word : Word) : Prop :=
  word.getLsbD 7 = true ∧ word.getLsbD 4 = true

/-- The words of an encoding. -/
def Matches (encoding : Encoding) (word : Word) : Prop :=
  match encoding with
  | .branch => word.extractLsb 27 25 = 0b101
  | .wideMove =>
      word.extractLsb 27 25 = 0b001 ∧ word.extractLsb 24 23 = 0b10 ∧ word.extractLsb 21 20 = 0b00
  | .immediateData => word.extractLsb 27 25 = 0b001 ∧ HasWritingOpcode word
  | .immediateComparison => word.extractLsb 27 25 = 0b001 ∧ HasComparingOpcode word
  | .branchExchange => word.extractLsb 27 25 = 0b000 ∧ word &&& 0x0FFFFFF0 = 0x012FFF10
  | .extraTransfer =>
      word.extractLsb 27 25 = 0b000 ∧ HasExtraBits word ∧ word.extractLsb 6 5 ≠ 0b00
  | .registerData =>
      word.extractLsb 27 25 = 0b000 ∧ ¬ HasExtraBits word ∧ HasWritingOpcode word
  | .registerComparison =>
      word.extractLsb 27 25 = 0b000 ∧ ¬ HasExtraBits word ∧ HasComparingOpcode word
  | .immediateTransfer => word.extractLsb 27 25 = 0b010
  | .registerTransfer => word.extractLsb 27 25 = 0b011 ∧ word.getLsbD 4 = false
  | .supervisorCall => word.extractLsb 27 24 = 0b1111

instance (word : Word) : Decidable (HasWritingOpcode word) :=
  inferInstanceAs (Decidable (_ ∨ _))

instance (word : Word) : Decidable (HasComparingOpcode word) :=
  inferInstanceAs (Decidable (_ ∧ _))

instance (word : Word) : Decidable (HasExtraBits word) :=
  inferInstanceAs (Decidable (_ ∧ _))

instance (encoding : Encoding) (word : Word) : Decidable (encoding.Matches word) :=
  match encoding with
  | .branch | .immediateTransfer | .supervisorCall => inferInstanceAs (Decidable (_ = _))
  | .wideMove => inferInstanceAs (Decidable (_ ∧ _ ∧ _))
  | .immediateData | .immediateComparison | .branchExchange | .registerTransfer =>
      inferInstanceAs (Decidable (_ ∧ _))
  | .extraTransfer | .registerData | .registerComparison =>
      inferInstanceAs (Decidable (_ ∧ _ ∧ _))

example : Encoding.branchExchange.Matches 0xE12FFF1E := by decide
example : ¬ Encoding.immediateComparison.Matches 0xE3400001 := by decide

/-- A word has a meaning if its condition exists and some encoding matches it. -/
def Documented (word : Word) : Prop :=
  word.extractLsb 31 28 ≠ 0b1111 ∧ ∃ encoding : Encoding, encoding.Matches word

/-! ## Patterns as fields

Decoding reads fields, so the same patterns are wanted in terms of them. -/

/-- The pattern of an encoding on the fields that decoding reads. -/
def HasFields (encoding : Encoding) (word : Word) : Prop :=
  match encoding with
  | .branch => word.field 25 3 = 5
  | .wideMove => word.field 25 3 = 1 ∧ word.field 23 2 = 2 ∧ word.field 20 2 = 0
  | .immediateData => word.field 25 3 = 1 ∧ word.field 21 4 ∈ Instruction.writingOpcodes
  | .immediateComparison =>
      word.field 25 3 = 1 ∧ word.field 21 4 = 0xA ∧ word.bit 20 = true
  | .branchExchange => word.field 25 3 = 0 ∧ word.field 4 24 = 0x12FFF1
  | .extraTransfer =>
      word.field 25 3 = 0 ∧ (word.bit 7 = true ∧ word.bit 4 = true) ∧ word.field 5 2 ≠ 0
  | .registerData =>
      word.field 25 3 = 0 ∧ ¬ (word.bit 7 = true ∧ word.bit 4 = true) ∧
        word.field 21 4 ∈ Instruction.writingOpcodes
  | .registerComparison =>
      word.field 25 3 = 0 ∧ ¬ (word.bit 7 = true ∧ word.bit 4 = true) ∧
        word.field 21 4 = 0xA ∧ word.bit 20 = true
  | .immediateTransfer => word.field 25 3 = 2
  | .registerTransfer => word.field 25 3 = 3 ∧ word.bit 4 = false
  | .supervisorCall => word.field 25 3 = 7 ∧ word.bit 24 = true

theorem hasWritingOpcode_iff (word : Word) :
    HasWritingOpcode word ↔ word.field 21 4 ∈ Instruction.writingOpcodes := by
  simp only [HasWritingOpcode, word.extractLsb_eq_iff, Instruction.writingOpcodes, List.mem_cons,
    List.not_mem_nil, or_false]
  rfl

theorem hasComparingOpcode_iff (word : Word) :
    HasComparingOpcode word ↔ word.field 21 4 = 0xA ∧ word.bit 20 = true := by
  rw [HasComparingOpcode, word.extractLsb_eq_iff, word.getLsbD_eq_bit]
  rfl

theorem hasExtraBits_iff (word : Word) :
    HasExtraBits word ↔ word.bit 7 = true ∧ word.bit 4 = true := by
  rw [HasExtraBits, word.getLsbD_eq_bit, word.getLsbD_eq_bit]

theorem matches_iff_hasFields (encoding : Encoding) (word : Word) :
    encoding.Matches word ↔ encoding.HasFields word := by
  -- The four bits of a call are its class and the bit below it.
  have topBits : word.field 24 4 = 15 ↔ word.field 25 3 = 7 ∧ word.bit 24 = true := by
    simp only [word.bit_eq_true_iff, Word.field, Nat.reduceShiftLeft]
    omega
  cases encoding <;>
    simp only [Matches, HasFields, ne_eq, word.extractLsb_eq_iff, word.getLsbD_eq_bit,
      word.and_exchangeMask_eq_iff, hasWritingOpcode_iff, hasComparingOpcode_iff,
      hasExtraBits_iff]
  case supervisorCall => exact topBits
  all_goals rfl

end Encoding

/-! ## Shapes -/

def Operand.isImmediate : Operand → Bool
  | .immediate _ _ _ => true
  | .register _ _ _ => false

def Offset.isImmediate : Offset → Bool
  | .immediate _ => true
  | .register _ _ _ => false

/-- The encoding of a transfer, by the room that its size has for an offset. -/
def Transfer.encoding (transfer : Transfer) (long : Bool) : Encoding :=
  if long then
    if transfer.offset.isImmediate then .immediateTransfer else .registerTransfer
  else .extraTransfer

/-- The encoding of an operation, which its shape alone determines. -/
def Operation.encoding? : Operation → Option Encoding
  | .combine _ _ _ operand _ | .move _ _ operand _ =>
      some (if operand.isImmediate then .immediateData else .registerData)
  | .compare _ operand =>
      some (if operand.isImmediate then .immediateComparison else .registerComparison)
  | .moveHalf _ _ _ => some .wideMove
  | .branch _ _ => some .branch
  | .branchExchange _ => some .branchExchange
  | .load size transfer => some (transfer.encoding size.isLong)
  | .store size transfer => some (transfer.encoding size.isLong)
  | .supervisorCall _ => some .supervisorCall
  | .undefined => none

namespace Instruction

@[simp] theorem isImmediate_operandOf (word : Word) :
    (operandOf word).isImmediate = word.bit 25 := by
  unfold operandOf
  cases word.bit 25 <;> rfl

theorem WritesResult.encoding_eq {word : Word} {operation : Operation}
    (writes : WritesResult word operation) :
    operation.encoding? = some (if word.bit 25 then .immediateData else .registerData) := by
  rcases writes with ⟨operator, rfl⟩ | ⟨inverted, rfl⟩
  · rw [Operation.encoding?, isImmediate_operandOf]
  · rw [Operation.encoding?, isImmediate_operandOf]

theorem MovesShort.encoding_eq {word : Word} {operation : Operation}
    (moves : MovesShort word operation) : operation.encoding? = some .extraTransfer := by
  rcases moves with ⟨size, notWord, notByte, rfl⟩ | ⟨size, notWord, notByte, rfl⟩
  · cases size <;> first | contradiction | rfl
  · cases size <;> first | contradiction | rfl

theorem encoding_transfer (word : Word) :
    (transfer word).encoding? =
      some (if word.bit 25 then .registerTransfer else .immediateTransfer) := by
  have moved : (transferOf word (longOffset word)).encoding true =
      if word.bit 25 then .registerTransfer else .immediateTransfer := by
    unfold Transfer.encoding transferOf longOffset
    cases word.bit 25 <;> rfl
  rw [transfer_eq, ← moved]
  cases word.bit 20 <;> cases word.bit 22 <;> rfl

end Instruction

end Arm32
