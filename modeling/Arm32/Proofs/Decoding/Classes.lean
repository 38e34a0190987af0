import Arm32.Instruction.Decode

namespace Arm32.Instruction

/-! Shapes of decoded operations. What is known of a word that decodes to an
operation, and what the operation looks like, for the two families that are told
apart by more than their class. -/

/-- The opcodes of the operations that write a register. -/
def writingOpcodes : List Nat :=
  [0x0, 0x2, 0x4, 0x5, 0xC, 0xD, 0xF]

/-- The offset of a transfer of a word or a byte. -/
def longOffset (word : Word) : Offset :=
  if word.bit 25 then .register (word.field 0 4) (shiftKindOf word) (word.field 7 5)
  else .immediate (word.field 0 12)

/-- The offset of every other transfer. -/
def shortOffset (word : Word) : Offset :=
  if word.bit 22 then .immediate (0x10 * word.field 8 4 + word.field 0 4 : Nat)
  else .register (word.field 0 4) .logicalLeft 0

/-- A data operation that writes a register, with its fields where every one of
them has them. -/
def WritesResult (word : Word) (operation : Operation) : Prop :=
  (∃ operator, operation = .combine operator (secondRegister word) (firstRegister word)
      (operandOf word) (word.bit 20)) ∨
    ∃ inverted, operation = .move inverted (secondRegister word) (operandOf word) (word.bit 20)

/-- A transfer of a size whose offset is a short one. -/
def MovesShort (word : Word) (operation : Operation) : Prop :=
  (∃ size : LoadSize, size ≠ .word ∧ size ≠ .byte ∧
      operation = .load size (transferOf word (shortOffset word))) ∨
    ∃ size : StoreSize, size ≠ .word ∧ size ≠ .byte ∧
      operation = .store size (transferOf word (shortOffset word))

/-! ## Data processing -/

theorem dataProcessing_of_writing {word : Word} (writes : word.field 21 4 ∈ writingOpcodes) :
    ∃ operation, dataProcessing word = .ok operation ∧ WritesResult word operation := by
  unfold dataProcessing
  generalize word.field 21 4 = opcode at writes
  simp only [writingOpcodes, List.mem_cons, List.not_mem_nil, or_false] at writes
  rcases writes with rfl | rfl | rfl | rfl | rfl | rfl | rfl
  · exact ⟨_, rfl, .inl ⟨.and, rfl⟩⟩
  · exact ⟨_, rfl, .inl ⟨.subtract, rfl⟩⟩
  · exact ⟨_, rfl, .inl ⟨.add, rfl⟩⟩
  · exact ⟨_, rfl, .inl ⟨.addWithCarry, rfl⟩⟩
  · exact ⟨_, rfl, .inl ⟨.or, rfl⟩⟩
  · exact ⟨_, rfl, .inr ⟨false, rfl⟩⟩
  · exact ⟨_, rfl, .inr ⟨true, rfl⟩⟩

theorem dataProcessing_of_comparing {word : Word} (compares : word.field 21 4 = 0xA)
    (setsFlags : word.bit 20 = true) :
    dataProcessing word = .ok (.compare (firstRegister word) (operandOf word)) := by
  unfold dataProcessing
  rw [compares, setsFlags]
  rfl

/-- Every other opcode is unknown. -/
theorem dataProcessing_of_unknown {word : Word} (notWriting : word.field 21 4 ∉ writingOpcodes)
    (notComparing : ¬ (word.field 21 4 = 0xA ∧ word.bit 20 = true)) :
    dataProcessing word = .error (.unknownOpcode (word.field 21 4) word) := by
  unfold dataProcessing
  generalize word.field 21 4 = opcode at notWriting notComparing
  simp only [writingOpcodes, List.mem_cons, List.not_mem_nil, or_false, not_or] at notWriting
  split
  case h_5 =>
    rw [if_neg fun setsFlags => notComparing ⟨rfl, setsFlags⟩]
  case h_9 => rfl
  all_goals omega

theorem dataProcessing_cases {word : Word} {operation : Operation}
    (decoded : dataProcessing word = .ok operation) :
    word.field 21 4 ∈ writingOpcodes ∧ WritesResult word operation ∨
      word.field 21 4 = 0xA ∧ word.bit 20 = true ∧
        operation = .compare (firstRegister word) (operandOf word) := by
  by_cases writes : word.field 21 4 ∈ writingOpcodes
  · rcases dataProcessing_of_writing writes with ⟨written, equal, shape⟩
    rw [equal] at decoded
    cases decoded
    exact .inl ⟨writes, shape⟩
  · by_cases compares : word.field 21 4 = 0xA ∧ word.bit 20 = true
    · rw [dataProcessing_of_comparing compares.1 compares.2] at decoded
      cases decoded
      exact .inr ⟨compares.1, compares.2, rfl⟩
    · rw [dataProcessing_of_unknown writes compares] at decoded
      cases decoded

/-! ## Transfers -/

theorem transfer_eq (word : Word) :
    transfer word =
      if word.bit 20 then
        .load (if word.bit 22 then .byte else .word) (transferOf word (longOffset word))
      else .store (if word.bit 22 then .byte else .word) (transferOf word (longOffset word)) :=
  rfl

theorem extraTransfer_of_typed {word : Word} (typed : word.field 5 2 ≠ 0) :
    ∃ operation, extraTransfer word = .ok operation ∧ MovesShort word operation := by
  have bound : word.field 5 2 < 4 := word.field_lt 5 2
  unfold extraTransfer
  generalize word.field 5 2 = type at typed bound
  have types : type = 1 ∨ type = 2 ∨ type = 3 := by omega
  rcases types with rfl | rfl | rfl <;> cases word.bit 20
  · exact ⟨_, rfl, .inr ⟨.halfWord, by decide, by decide, rfl⟩⟩
  · exact ⟨_, rfl, .inl ⟨.unsignedHalfWord, by decide, by decide, rfl⟩⟩
  · exact ⟨_, rfl, .inl ⟨.doubleWord, by decide, by decide, rfl⟩⟩
  · exact ⟨_, rfl, .inl ⟨.signedByte, by decide, by decide, rfl⟩⟩
  · exact ⟨_, rfl, .inr ⟨.doubleWord, by decide, by decide, rfl⟩⟩
  · exact ⟨_, rfl, .inl ⟨.signedHalfWord, by decide, by decide, rfl⟩⟩

/-- The type zero is that of multiplications and swaps. -/
theorem extraTransfer_of_untyped {word : Word} (untyped : word.field 5 2 = 0) :
    extraTransfer word = .error (.unknownMultiplyOrSwap word) := by
  unfold extraTransfer
  rw [untyped]
  rfl

theorem extraTransfer_cases {word : Word} {operation : Operation}
    (decoded : extraTransfer word = .ok operation) :
    word.field 5 2 ≠ 0 ∧ MovesShort word operation := by
  by_cases untyped : word.field 5 2 = 0
  · rw [extraTransfer_of_untyped untyped] at decoded
    cases decoded
  · rcases extraTransfer_of_typed untyped with ⟨moved, equal, shape⟩
    rw [equal] at decoded
    cases decoded
    exact ⟨untyped, shape⟩

end Arm32.Instruction
