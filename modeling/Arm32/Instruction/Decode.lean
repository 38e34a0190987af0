import Arm32.Instruction

namespace Arm32

/-! Reading instruction words. The class of a word is in bits 27 to 25. Some
encodings lie inside others: wide moves where comparisons without flags would
be, branch exchanges and extra transfers among the register operations. -/

namespace Instruction

def conditionOf (word : Word) : Except Fault Condition :=
  match Condition.ofCode? (word.field 28 4) with
  | some condition => .ok condition
  | none => .error (.unknownCondition (word.field 28 4) word)

/-! ## Operands -/

def shiftKindOf (word : Word) : ShiftKind :=
  .ofCode (word.field 5 2)

/-- An eight-bit value, rotated to the right by twice a four-bit amount. -/
def rotatedImmediate (word : Word) : Operand :=
  let rotation := 2 * word.field 8 4
  let value := (Word.rotateRight (word.field 0 8) rotation).toInt
  .immediate value (isNegative value) rotation

/-- A register, shifted by an encoded amount or by another register. -/
def shiftedRegister (word : Word) : Operand :=
  .register (word.field 0 4) (shiftKindOf word)
    (if word.bit 4 then .register (word.field 8 4) else .immediate (word.field 7 5))

def operandOf (word : Word) : Operand :=
  if word.bit 25 then rotatedImmediate word else shiftedRegister word

/-! ## Data processing -/

/-- The register in bits 19 to 16, the first source or the base. -/
def firstRegister (word : Word) : Int :=
  word.field 16 4

/-- The register in bits 15 to 12, the destination or the value. -/
def secondRegister (word : Word) : Int :=
  word.field 12 4

def dataProcessing (word : Word) : Except Fault Operation :=
  let setsFlags := word.bit 20
  let combine (operator : DataOperator) : Except Fault Operation :=
    .ok (.combine operator (secondRegister word) (firstRegister word) (operandOf word) setsFlags)
  let move (inverted : Bool) : Except Fault Operation :=
    .ok (.move inverted (secondRegister word) (operandOf word) setsFlags)
  let unknown : Except Fault Operation := .error (.unknownOpcode (word.field 21 4) word)
  match word.field 21 4 with
  | 0x0 => combine .and
  | 0x2 => combine .subtract
  | 0x4 => combine .add
  | 0x5 => combine .addWithCarry
  | 0xA => if setsFlags then .ok (.compare (firstRegister word) (operandOf word)) else unknown
  | 0xC => combine .or
  | 0xD => move false
  | 0xF => move true
  | _ => unknown

/-- Wide moves hold sixteen bits, the top four of them in bits 19 to 16. -/
def wideMove (word : Word) : Operation :=
  .moveHalf (if word.bit 22 then .high else .low) (secondRegister word)
    (0x1000 * word.field 16 4 + word.field 0 12 : Nat)

/-! ## Transfers -/

/-- A transfer with its offset added afterwards always writes its base back. -/
def transferOf (word : Word) (offset : Offset) : Transfer where
  indexing := if word.bit 24 then .before else .after
  writeBack := !word.bit 24 || word.bit 21
  sign := if word.bit 23 then .plus else .minus
  valueRegister := secondRegister word
  baseRegister := firstRegister word
  offset := offset

def transfer (word : Word) : Operation :=
  let offset : Offset :=
    if word.bit 25 then .register (word.field 0 4) (shiftKindOf word) (word.field 7 5)
    else .immediate (word.field 0 12)
  if word.bit 20 then
    .load (if word.bit 22 then .byte else .word) (transferOf word offset)
  else
    .store (if word.bit 22 then .byte else .word) (transferOf word offset)

/-- Half words, signed loads and double words. Their offset is a plain register
or eight bits in two halves. -/
def extraTransfer (word : Word) : Except Fault Operation :=
  let offset : Offset :=
    if word.bit 22 then .immediate (0x10 * word.field 8 4 + word.field 0 4 : Nat)
    else .register (word.field 0 4) .logicalLeft 0
  let moved := transferOf word offset
  match word.field 5 2, word.bit 20 with
  | 1, false => .ok (.store .halfWord moved)
  | 1, true => .ok (.load .unsignedHalfWord moved)
  | 2, false => .ok (.load .doubleWord moved)
  | 2, true => .ok (.load .signedByte moved)
  | 3, false => .ok (.store .doubleWord moved)
  | 3, true => .ok (.load .signedHalfWord moved)
  | _, _ => .error (.unknownMultiplyOrSwap word)

/-! ## Branches -/

/-- How far ahead of an instruction the program counter reads. -/
def fetchAhead : Int := 8

/-- The offset counts words from two instructions after the branch. -/
def branch (word : Word) : Operation :=
  .branch (4 * toSigned (word.field 0 24) 24 + fetchAhead) (word.bit 24)

/-! ## Words -/

def registerClass (word : Word) : Except Fault Operation :=
  if word.field 4 24 = 0x12FFF1 then .ok (.branchExchange (word.field 0 4))
  else if word.bit 7 && word.bit 4 then extraTransfer word
  else dataProcessing word

def immediateClass (word : Word) : Except Fault Operation :=
  if word.field 23 2 = 2 ∧ word.field 20 2 = 0 then .ok (wideMove word)
  else dataProcessing word

def operationOf (word : Word) : Except Fault Operation :=
  match word.field 25 3 with
  | 0 => registerClass word
  | 1 => immediateClass word
  | 2 => .ok (transfer word)
  | 3 => if word.bit 4 then .error (.unknownMedia word) else .ok (transfer word)
  | 5 => .ok (branch word)
  | 7 =>
      if word.bit 24 then .ok (.supervisorCall (word.field 0 24))
      else .error (.unknownInstruction word)
  | _ => .error (.unknownInstruction word)

/-- The instruction that a word encodes. -/
def ofWord (word : Word) : Except Fault Instruction := do
  let condition ← conditionOf word
  let operation ← operationOf word
  return { condition, operation }

/-- The instruction that an integer encodes; it has to be a word. -/
def decode (value : Int) : Except Failure Instruction :=
  if 0 ≤ value ∧ value < 0x100000000 then (ofWord (.ofInt value)).mapError .fault
  else .error (.naming value .wordOutOfRange)

theorem decode_toInt (word : Word) : decode word.toInt = (ofWord word).mapError .fault := by
  have inRange : 0 ≤ word.toInt ∧ word.toInt < 0x100000000 := by
    have bound := word.isLt
    simp only [Word.toInt]
    omega
  rw [decode, if_pos inRange, Word.ofInt_toInt]

theorem decode_toInt_eq_ok_iff {word : Word} {instruction : Instruction} :
    decode word.toInt = .ok instruction ↔ ofWord word = .ok instruction := by
  rw [decode_toInt, Failure.mapError_eq_ok_iff]

theorem decode_eq_ok_iff {value : Int} {instruction : Instruction} :
    decode value = .ok instruction ↔
      (0 ≤ value ∧ value < 0x100000000) ∧ ofWord (.ofInt value) = .ok instruction := by
  unfold decode
  by_cases inRange : 0 ≤ value ∧ value < 0x100000000
  · rw [if_pos inRange, and_iff_right inRange, Failure.mapError_eq_ok_iff]
  · simp [inRange]

example : ofWord 0xE3A00005 =
    .ok ⟨.always, .move false 0 (.immediate 5 false 0) false⟩ := by cbv
example : ofWord 0xEAFFFFFE = .ok ⟨.always, .branch 0 false⟩ := by cbv
example : ofWord 0xE7F000F0 = .error (.unknownMedia 0xE7F000F0) := by cbv

end Instruction

end Arm32
