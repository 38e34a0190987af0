import Arm32.Assembly
import Arm32.Proofs.Decoding.Image
import Arm32.Proofs.Execution.Outward
import Arm32.Proofs.Text.Numerals

namespace Arm32

/-! Branches. The field of a branch counts words, with a sign, from two instructions after
it and around the address space. The machine goes where the text says that it goes; only
the field that counts two words back halts it, wherever the branch stands. -/

/-! ## Targets -/

/-- Where a branch leads that stands at the address. -/
def Word.branchTarget (word address : Word) : Word :=
  ofInt (address.toInt + 8 + 4 * BitVec.toInt (word.extractLsb 23 0))

example : Word.branchTarget 0xEBFFFFFD 0 = 0xFFFFFFFC := by decide

section Fields

variable {word : Word} {offset : Int} {link : Bool}

theorem offset_eq_field (branches : Operation.branch offset link = Instruction.branch word) :
    offset = 8 + 4 * BitVec.toInt (word.extractLsb 23 0) := by
  have field : word.field 0 24 = (word.extractLsb 23 0).toNat :=
    (word.extractLsb_eq_iff 23 0 _).mp rfl
  have signed : toSigned (word.field 0 24) 24 = BitVec.toInt (word.extractLsb 23 0) := by
    rw [BitVec.toInt_eq_toNat_bmod, field, toSigned_eq, Nat.one_shiftLeft]
  have counted := (Operation.branch.inj branches).1
  rw [Instruction.fetchAhead] at counted
  omega

theorem offset_eq_zero_iff (branches : Operation.branch offset link = Instruction.branch word) :
    offset = 0 ↔ word.extractLsb 23 0 = 0xFFFFFE := by
  have back : BitVec.toInt (0xFFFFFE : BitVec (23 - 0 + 1)) = -2 := by decide
  rw [offset_eq_field branches, ← BitVec.toInt_inj, back]
  omega

theorem getLsbD_link (branches : Operation.branch offset link = Instruction.branch word) :
    word.getLsbD 24 = link := by
  rw [word.getLsbD_eq_bit, (Operation.branch.inj branches).2]

/-- The target of a decoded branch is told by its offset. -/
theorem ofInt_offset (branches : Operation.branch offset link = Instruction.branch word)
    (address : Word) : Word.ofInt (address.toInt + offset) = word.branchTarget address := by
  rw [offset_eq_field branches, ← Int.add_assoc, Word.branchTarget]

end Fields

/-! ## Machines -/

namespace Machine

/-- What a branch makes of the machine that comes to it. -/
structure BranchesTo (machine : Machine) (word : Word) (after : Machine) : Prop where
  halted : after.halted = if word.extractLsb 23 0 = 0xFFFFFE then true else machine.halted
  counter : after.programCounter =
    if word.extractLsb 23 0 = 0xFFFFFE then machine.programCounter + 4
    else word.branchTarget machine.programCounter
  link : after.registers.get Register.link =
    if word.getLsbD 24 then machine.programCounter + 4 else machine.registers.get Register.link
  registers : ∀ register, register ≠ Register.link → register ≠ Register.programCounter →
    after.registers.get register = machine.registers.get register
  flags : after.flags = machine.flags
  memory : after.memory = machine.memory
  console : after.console? = machine.console?

/-- The machine that has moved past a branch and has noted where to come back to. -/
def departed (machine : Machine) (link : Bool) : Machine :=
  if link then machine.advance.setRegister Register.link (machine.programCounter + 4)
  else machine.advance

variable (machine : Machine) (link : Bool)

theorem programCounter_departed :
    (machine.departed link).programCounter = machine.programCounter + 4 := by
  cases link with
  | false => exact machine.programCounter_advance
  | true =>
      rw [← machine.programCounter_advance]
      exact machine.advance.setRegister_other _ _ _ (by decide)

theorem link_departed :
    (machine.departed link).registers.get Register.link =
      if link then machine.programCounter + 4 else machine.registers.get Register.link := by
  cases link with
  | false => exact machine.setRegister_other _ _ _ (by decide)
  | true => exact machine.advance.setRegister_same _ _

theorem register_departed {register : Register} (notLink : register ≠ Register.link)
    (notCounter : register ≠ Register.programCounter) :
    (machine.departed link).registers.get register = machine.registers.get register := by
  have advanced : machine.advance.registers.get register = machine.registers.get register :=
    machine.setRegister_other _ _ _ notCounter
  cases link with
  | false => exact advanced
  | true => exact (machine.advance.setRegister_other _ _ _ notLink).trans advanced

variable {machine link}

/-- A branch halts at itself; every other one goes on at its offset. -/
theorem branched_advance {offset : Int} (reaches : BranchOffset offset) :
    machine.advance.branched offset link =
      if offset = 0 then (machine.departed link).halt
      else (machine.departed link).setProgramCounter
        (Word.ofInt (machine.programCounter.toInt + offset)) := by
  have origin : machine.advance.programCounter - instructionSize = machine.programCounter := by
    rw [programCounter_advance]
    exact BitVec.add_sub_cancel _ _
  rw [branched, origin]
  simp only [ofInt_add_eq_self_iff reaches, programCounter_advance]
  rfl

theorem branchesTo_branched {word : Word} {offset : Int}
    (branches : Operation.branch offset link = Instruction.branch word) :
    machine.BranchesTo word (machine.advance.branched offset link) := by
  have reaches : BranchOffset offset := by
    have wellFormed := Instruction.branch_wellFormed word
    rw [← branches] at wellFormed
    exact wellFormed
  have linked := getLsbD_link branches
  have returns := machine.link_departed link
  have notCounter : Register.link ≠ Register.programCounter := by decide
  rw [branched_advance reaches, ofInt_offset branches]
  simp only [offset_eq_zero_iff branches]
  split
  case isTrue field =>
    constructor
    case halted => rw [if_pos field]; rfl
    case counter => rw [if_pos field]; exact machine.programCounter_departed link
    case link => rw [linked]; exact returns
    case registers =>
      exact fun register notLink away => machine.register_departed link notLink away
    all_goals cases link <;> rfl
  case isFalse field =>
    constructor
    case halted => rw [if_neg field]; cases link <;> rfl
    case counter => rw [if_neg field]; exact setProgramCounter_same _ _
    case link => rw [linked]; exact (setRegister_other _ _ _ _ notCounter).trans returns
    case registers =>
      intro register notLink away
      exact (setRegister_other _ _ _ _ away).trans (machine.register_departed link notLink away)
    all_goals cases link <;> rfl

end Machine

/-! ## Texts -/

/-- The text of a branch whose address is known ends with its target. -/
theorem Instruction.text_branch (condition : Condition) {word : Word} {offset : Int} {link : Bool}
    (branches : Operation.branch offset link = Instruction.branch word) (address : Word) :
    Instruction.text ⟨condition, .branch offset link⟩ (some address.toInt) =
      .ok ((if link then "BL" else "B") ++ condition.suffix ++ " " ++
        Numeral.write .address (word.branchTarget address).toInt) := by
  have printed := String.intercalate_singleton (s := ", ")
    (t := (Assembly.branchArgument (some address.toInt) offset).text)
  rw [← ofInt_offset branches]
  simp only [text, Assembly.line, pure, Except.pure, Except.map, Assembly.Line.text, List.map,
    printed, Bool.false_eq_true, if_false, String.append_empty]
  rfl

namespace Action

/-- A branch goes where its text says, from every address: to the target that its field
counts, or, if that is the branch itself, past it and to a halt. It changes nothing but the
program counter and, if it is to return, the link register. -/
theorem branch_arrives {word : Word} {instruction : Instruction}
    (decoded : Instruction.decode word.toInt = .ok instruction)
    (isBranch : Encoding.branch.Matches word) (machine : Machine) :
    (instruction.condition.holds machine.flags = true →
        ∃ after, (execute instruction).run machine = .ok () after ∧
          machine.BranchesTo word after) ∧
      instruction.text (some machine.programCounter.toInt) =
        .ok ((if word.getLsbD 24 then "BL" else "B") ++ instruction.condition.suffix ++ " " ++
          ("0x" ++ String.ofList ((Nat.toDigits 16
            (word.branchTarget machine.programCounter).toNat).leftpad 8 '0'))) := by
  rw [Instruction.decode_toInt_eq_ok_iff] at decoded
  have found := (Instruction.ofWord_eq_ok.mp decoded).2
  rw [Instruction.operationOf_branch ((Encoding.branch.matches_iff_hasFields word).mp isBranch)]
    at found
  rcases instruction with ⟨condition, operation⟩
  have same : Instruction.branch word = operation := Except.ok.inj found
  rcases (⟨_, _, rfl⟩ : ∃ offset link, Instruction.branch word = .branch offset link) with
    ⟨offset, link, shape⟩
  have branches : Operation.branch offset link = Instruction.branch word := shape.symm
  have performed : operation = .branch offset link := same.symm.trans shape
  subst performed
  constructor
  · intro holds
    refine ⟨_, ?_, Machine.branchesTo_branched branches⟩
    rw [run_execute, if_pos holds, perform, run_branch]
  · rw [Instruction.text_branch condition branches, getLsbD_link branches, Word.toInt,
      Numeral.write_address]

/-- A call that leads back from address 0 goes to the other end of the address space. -/
theorem branch_arrives_around :
    let machine : Machine := { memory := .zeros 8 }
    let instruction : Instruction := ⟨.always, .branch (-4) true⟩
    Instruction.decode (0xEBFFFFFD : Word).toInt = .ok instruction ∧
      Encoding.branch.Matches 0xEBFFFFFD ∧
      (∃ after, (execute instruction).run machine = .ok () after ∧ after.halted = false ∧
        after.programCounter = 0xFFFFFFFC ∧ after.registers.get Register.link = 4) ∧
      instruction.text (some 0) = .ok "BL 0xfffffffc" := by
  intro machine instruction
  have found : Instruction.operationOf 0xEBFFFFFD = .ok instruction.operation :=
    (Instruction.operationOf_branch (by decide)).trans (congrArg Except.ok (by decide))
  have decoded : Instruction.decode (0xEBFFFFFD : Word).toInt = .ok instruction :=
    Instruction.decode_toInt_eq_ok_iff.mpr (Instruction.ofWord_eq_ok.mpr ⟨rfl, found⟩)
  have isBranch : Encoding.branch.Matches 0xEBFFFFFD := by decide
  rcases branch_arrives decoded isBranch machine with ⟨goes, shown⟩
  rcases goes rfl with ⟨after, executed, arrives⟩
  exact ⟨decoded, isBranch, ⟨after, executed, arrives.halted, arrives.counter, arrives.link⟩,
    shown.trans (congrArg Except.ok (by decide +kernel))⟩

end Action

end Arm32
