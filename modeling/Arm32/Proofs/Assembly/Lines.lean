import Arm32.Assembly
import Arm32.Proofs.Instruction.Fields

namespace Arm32

/-! The text of well-formed instructions. Writing an instruction down fails only
for a register without a name, and a well-formed instruction names none. -/

/-- A result that is no misuse. -/
def Succeeds (result : Except Misuse α) : Prop :=
  ∃ value, result = .ok value

namespace Succeeds

theorem pure (value : α) : Succeeds (Pure.pure value) :=
  ⟨value, rfl⟩

theorem bind {result : Except Misuse α} {next : α → Except Misuse β}
    (succeeds : Succeeds result) (continues : ∀ value, Succeeds (next value)) :
    Succeeds (result >>= next) := by
  rcases succeeds with ⟨value, rfl⟩
  exact continues value

theorem map {result : Except Misuse α} (change : α → β) (succeeds : Succeeds result) :
    Succeeds (result.map change) := by
  rcases succeeds with ⟨value, rfl⟩
  exact ⟨change value, rfl⟩

end Succeeds

namespace Assembly

/-! ## Registers -/

@[simp] theorem named?_number (register : Register) :
    Register.named? register.number = some register := by
  have bound := register.bound
  rw [Register.named?, if_neg (by simp only [Register.number]; omega), Register.ofNumber?_number]

theorem namedRegister_succeeds {number : Int} (names : IsRegister number) :
    Succeeds (namedRegister number) := by
  rcases names.eq_number with ⟨register, rfl⟩
  rw [namedRegister, named?_number]
  exact ⟨register, rfl⟩

theorem registerArgument_succeeds {number : Int} (names : IsRegister number) :
    Succeeds (registerArgument number) :=
  (namedRegister_succeeds names).map Argument.register

/-! ## Arguments -/

theorem decimalNumber_succeeds {value : Int} (fits : Numeral.FitsDecimal value) :
    Succeeds (decimalNumber value) :=
  ⟨value, decimalNumber_of_fits fits⟩

theorem operandArgument_succeeds {operand : Operand} (wellFormed : operand.WellFormed) :
    Succeeds (operandArgument operand) := by
  cases operand with
  | immediate value carry rotation =>
      refine .map _ ?_
      split
      · exact decimalNumber_succeeds wellFormed.fitsDecimal
      · exact .pure _
  | register number kind amount =>
      rcases wellFormed with ⟨names, amountNames⟩
      cases amount with
      | immediate amount =>
          rw [operandArgument]
          split
          · exact (namedRegister_succeeds names).map _
          · split
            · exact (namedRegister_succeeds names).map _
            · refine (decimalNumber_succeeds (amountNames.fitsDecimal (by decide))).bind fun _ => ?_
              exact (namedRegister_succeeds names).bind fun _ => .pure _
      | register amount =>
          refine (namedRegister_succeeds names).bind fun register => ?_
          exact (namedRegister_succeeds amountNames).bind fun _ => .pure _

theorem offsetTerm_succeeds (sign : OffsetSign) {offset : Offset} (fits : offset.FitsLong) :
    Succeeds (offsetTerm sign offset) := by
  cases offset with
  | immediate value => exact (decimalNumber_succeeds (fits.fitsDecimal (by decide))).map _
  | register number kind amount =>
      refine (namedRegister_succeeds fits.1).bind fun register => ?_
      split
      · exact .pure _
      · exact (decimalNumber_succeeds (fits.2.fitsDecimal (by decide))).bind fun _ => .pure _

theorem addressArgument_succeeds {transfer : Transfer} {long : Bool}
    (wellFormed : transfer.WellFormed long) : Succeeds (addressArgument transfer) := by
  refine (namedRegister_succeeds wellFormed.baseNames).bind fun base => ?_
  split
  · exact .pure _
  · refine (offsetTerm_succeeds transfer.sign wellFormed.offsetFits).bind fun offset => ?_
    cases transfer.indexing with
    | before => exact .pure _
    | after => exact .pure _

theorem transferArguments_succeeds {transfer : Transfer} {long : Bool}
    (wellFormed : transfer.WellFormed long) : Succeeds (transferArguments transfer) := by
  refine (registerArgument_succeeds wellFormed.valueNames).bind fun value => ?_
  exact (addressArgument_succeeds wellFormed).bind fun _ => .pure _

/-! ## Lines -/

theorem line_succeeds {instruction : Instruction} (wellFormed : instruction.WellFormed)
    (address? : Option Int) : Succeeds (line instruction address?) := by
  rcases instruction with ⟨condition, operation⟩
  cases operation with
  | combine operator destination source operand setsFlags =>
      rcases wellFormed with ⟨destinationNames, sourceNames, operandFits⟩
      refine (registerArgument_succeeds destinationNames).bind fun _ => ?_
      refine (registerArgument_succeeds sourceNames).bind fun _ => ?_
      exact (operandArgument_succeeds operandFits).bind fun _ => .pure _
  | compare source operand =>
      refine (registerArgument_succeeds wellFormed.1).bind fun _ => ?_
      exact (operandArgument_succeeds wellFormed.2).bind fun _ => .pure _
  | move inverted destination operand setsFlags =>
      refine (registerArgument_succeeds wellFormed.1).bind fun _ => ?_
      exact (operandArgument_succeeds wellFormed.2).bind fun _ => .pure _
  | moveHalf half destination immediate =>
      exact (registerArgument_succeeds wellFormed.1).bind fun _ => .pure _
  | branch offset link => exact .pure _
  | branchExchange register =>
      exact (registerArgument_succeeds wellFormed).bind fun _ => .pure _
  | load size transfer => exact (transferArguments_succeeds wellFormed).bind fun _ => .pure _
  | store size transfer => exact (transferArguments_succeeds wellFormed).bind fun _ => .pure _
  | supervisorCall immediate => exact .pure _
  | undefined => exact .pure _

end Assembly

/-- A well-formed instruction has a text, wherever it stands. -/
theorem Instruction.text_succeeds {instruction : Instruction}
    (wellFormed : instruction.WellFormed) (address? : Option Int) :
    Succeeds (instruction.text address?) :=
  (Assembly.line_succeeds wellFormed address?).map Assembly.Line.text

end Arm32
