import Arm32.Instruction.WellFormed
import Arm32.Proofs.Decoding.Classes

namespace Arm32

/-! What decoding yields. Every field of a decoded instruction comes out of a
word, and so has no more bits than the word had for it. -/

namespace Word

theorem isRegister_field (word : Word) (low : Nat) : IsRegister (word.field low 4) := by
  have bound : word.field low 4 < 16 := word.field_lt low 4
  simp only [IsRegister]
  omega

theorem fits_field (word : Word) (low width : Nat) : Fits width (word.field low width) := by
  have bound := word.field_lt low width
  simp only [Fits]
  omega

end Word

namespace Instruction

theorem firstRegister_isRegister (word : Word) : IsRegister (firstRegister word) :=
  word.isRegister_field 16

theorem secondRegister_isRegister (word : Word) : IsRegister (secondRegister word) :=
  word.isRegister_field 12

/-! ## Operands -/

theorem rotatedImmediate_wellFormed (word : Word) : (rotatedImmediate word).WellFormed := by
  have bound := word.field_lt 8 4
  simp only [Nat.reduceShiftLeft] at bound
  refine ⟨?_, ?_, rfl, word.field 0 8, word.fits_field 0 8, rfl⟩
  · simp only [Fits, Nat.reduceShiftLeft]
    omega
  · omega

theorem shiftedRegister_wellFormed (word : Word) : (shiftedRegister word).WellFormed := by
  refine ⟨word.isRegister_field 0, ?_⟩
  split
  · exact word.isRegister_field 8
  · exact word.fits_field 7 5

theorem operandOf_wellFormed (word : Word) : (operandOf word).WellFormed := by
  unfold operandOf
  split
  · exact rotatedImmediate_wellFormed word
  · exact shiftedRegister_wellFormed word

/-! ## Operations -/

theorem WritesResult.wellFormed {word : Word} {operation : Operation}
    (writes : WritesResult word operation) : operation.WellFormed := by
  have destination := secondRegister_isRegister word
  have operand := operandOf_wellFormed word
  rcases writes with ⟨operator, rfl⟩ | ⟨inverted, rfl⟩
  · exact ⟨destination, firstRegister_isRegister word, operand⟩
  · exact ⟨destination, operand⟩

theorem dataProcessing_wellFormed {word : Word} {operation : Operation}
    (decoded : dataProcessing word = .ok operation) : operation.WellFormed := by
  rcases dataProcessing_cases decoded with ⟨-, writes⟩ | ⟨-, -, rfl⟩
  · exact writes.wellFormed
  · exact ⟨firstRegister_isRegister word, operandOf_wellFormed word⟩

theorem wideMove_wellFormed (word : Word) : (wideMove word).WellFormed := by
  have high := word.field_lt 16 4
  have low := word.field_lt 0 12
  simp only [Nat.reduceShiftLeft] at high low
  refine ⟨secondRegister_isRegister word, ?_⟩
  simp only [Fits, Nat.reduceShiftLeft]
  omega

theorem transferOf_wellFormed (word : Word) {offset : Offset} {long : Bool}
    (fits : if long then offset.FitsLong else offset.FitsShort) :
    (transferOf word offset).WellFormed long := by
  refine ⟨secondRegister_isRegister word, firstRegister_isRegister word, ?_, fits⟩
  intro after
  cases before : word.bit 24 with
  | false => simp [transferOf, before]
  | true => simp [transferOf, before] at after

theorem longOffset_fits (word : Word) : (longOffset word).FitsLong := by
  unfold longOffset
  split
  · exact ⟨word.isRegister_field 0, word.fits_field 7 5⟩
  · exact word.fits_field 0 12

theorem transfer_wellFormed (word : Word) : (transfer word).WellFormed := by
  have moved : (transferOf word (longOffset word)).WellFormed true :=
    transferOf_wellFormed word (longOffset_fits word)
  rw [transfer_eq]
  cases word.bit 20 <;> cases word.bit 22 <;> exact moved

theorem shortOffset_fits (word : Word) : (shortOffset word).FitsShort := by
  have high := word.field_lt 8 4
  have low := word.field_lt 0 4
  simp only [Nat.reduceShiftLeft] at high low
  unfold shortOffset
  split
  · simp only [Offset.FitsShort, Fits, Nat.reduceShiftLeft]
    omega
  · exact ⟨word.isRegister_field 0, rfl, rfl⟩

theorem extraTransfer_wellFormed {word : Word} {operation : Operation}
    (decoded : extraTransfer word = .ok operation) : operation.WellFormed := by
  have moved : (transferOf word (shortOffset word)).WellFormed false :=
    transferOf_wellFormed word (shortOffset_fits word)
  rcases (extraTransfer_cases decoded).2 with
    ⟨size, notWord, notByte, rfl⟩ | ⟨size, notWord, notByte, rfl⟩
  · cases size <;> first | contradiction | exact moved
  · cases size <;> first | contradiction | exact moved

theorem branch_wellFormed (word : Word) : (branch word).WellFormed := by
  have bound := word.field_lt 0 24
  simp only [branch, fetchAhead, Operation.WellFormed, BranchOffset, toSigned_eq, Int.bmod,
    Nat.reduceShiftLeft] at bound ⊢
  omega

theorem registerClass_wellFormed {word : Word} {operation : Operation}
    (decoded : registerClass word = .ok operation) : operation.WellFormed := by
  unfold registerClass at decoded
  split at decoded
  · cases decoded
    exact word.isRegister_field 0
  · split at decoded
    · exact extraTransfer_wellFormed decoded
    · exact dataProcessing_wellFormed decoded

theorem immediateClass_wellFormed {word : Word} {operation : Operation}
    (decoded : immediateClass word = .ok operation) : operation.WellFormed := by
  unfold immediateClass at decoded
  split at decoded
  · cases decoded
    exact wideMove_wellFormed word
  · exact dataProcessing_wellFormed decoded

theorem operationOf_wellFormed {word : Word} {operation : Operation}
    (decoded : operationOf word = .ok operation) : operation.WellFormed := by
  unfold operationOf at decoded
  split at decoded
  · exact registerClass_wellFormed decoded
  · exact immediateClass_wellFormed decoded
  · cases decoded
    exact transfer_wellFormed word
  · split at decoded
    · cases decoded
    · cases decoded
      exact transfer_wellFormed word
  · cases decoded
    exact branch_wellFormed word
  · split at decoded
    · cases decoded
      exact word.fits_field 0 24
    · cases decoded
  · cases decoded

/-! ## Words -/

theorem ofWord_eq_ok {word : Word} {instruction : Instruction} :
    ofWord word = .ok instruction ↔
      conditionOf word = .ok instruction.condition ∧
        operationOf word = .ok instruction.operation := by
  unfold ofWord
  cases conditionOf word with
  | error fault => simp [bind, Except.bind]
  | ok condition =>
      cases operationOf word with
      | error fault => simp [bind, Except.bind]
      | ok operation =>
          cases instruction
          simp [bind, Except.bind, pure, Except.pure]

theorem ofWord_wellFormed {word : Word} {instruction : Instruction}
    (decoded : ofWord word = .ok instruction) : instruction.WellFormed :=
  operationOf_wellFormed (ofWord_eq_ok.mp decoded).2

theorem wellFormed_of_decode {value : Int} {instruction : Instruction}
    (decoded : decode value = .ok instruction) : instruction.WellFormed :=
  ofWord_wellFormed (decode_eq_ok_iff.mp decoded).2

end Instruction

end Arm32
