import Arm32.Proofs.Running.Reports

namespace Arm32

/-! Runs have reports. Whatever goes wrong once there is a memory is a fault, and a fault
ends up in the report. The one exception is the fault of a run that exceeds its limit: its
message shows the limit in decimal, and some limits have too many figures for that. -/

namespace Run

variable {image : Image} {options : Options}

theorem program_eq_ok_iff (image : Image) (options : Options) :
    (∃ report, program image options = .ok report) ↔
      0 < options.memorySize ∧
        (Numeral.FitsDecimal options.stepLimit ∨
          ∀ machine, start? image options = some machine → ¬ Outlasts options machine) := by
  constructor
  · rintro ⟨report, reported⟩
    have positive := positive_of_program reported
    refine ⟨positive, ?_⟩
    by_cases fits : Numeral.FitsDecimal options.stepLimit
    · exact .inl fits
    · refine .inr fun machine started outlasts => ?_
      cases setup_cases image positive with
      | refused fault memory event kind abandons =>
          rw [(abandons options rfl rfl).1] at started
          cases started
      | ready loaded memory starts =>
          rcases starts options rfl rfl with ⟨startedAgain, resumes⟩
          cases started.symm.trans startedAgain
          rw [resumes, outlasts.resume_eq fits loaded] at reported
          cases reported
  · rintro ⟨positive, named⟩
    cases setup_cases image positive with
    | refused fault memory event kind abandons => exact ⟨_, (abandons options rfl rfl).2⟩
    | ready loaded memory starts =>
        rcases starts options rfl rfl with ⟨started, resumes⟩
        rcases course_cases options
          (place options ((freshMachine options memory).withImage image)) with
          ⟨steps, middle, ending, last, outcome, course⟩ | ⟨outlasts, tooLong⟩
        · exact ⟨_, resumes.trans (course.resume_eq loaded)⟩
        · rcases named with fits | within
          · exact absurd fits tooLong
          · exact absurd outlasts (within _ started)

/-- A run has a report exactly if its memory is to have a positive size, and it does not
outlast a step limit that has too many figures to be named. No image, no seeds and no other
number make it ask for anything that does not exist. -/
theorem program_succeeds_iff (image : Image) (options : Options) :
    ((∃ report, program image options = .ok report) ↔
        0 < options.memorySize ∧
          (Numeral.FitsDecimal options.stepLimit ∨
            ∀ machine, start? image options = some machine → ¬ Outlasts options machine)) ∧
      ∀ misuse, 0 < options.memorySize → program image options = .error misuse →
        misuse = .numeralTooLong := by
  refine ⟨program_eq_ok_iff image options, fun misuse positive failed => ?_⟩
  have reports : Reports image options fun _ => True :=
    reports_of_holds image positive fun _ _ => trivial
  rcases reports with ⟨report, reported, -⟩ | ⟨unnamed, -⟩
  · rw [failed] at reported
    cases reported
  · rw [failed] at unnamed
    cases unnamed
    rfl

/-- A run that is allowed no step and cannot say so. -/
theorem program_without_steps {limit : Int} (negative : limit ≤ 0)
    (tooLong : ¬ Numeral.FitsDecimal limit) :
    program [] { memorySize := 16, stepLimit := limit } = .error .numeralTooLong := by
  have begins : (start? [] { memorySize := 16, stepLimit := limit }).isSome = true := rfl
  have positive : (0 : Int) < 16 := by decide
  cases @setup_cases { memorySize := 16, stepLimit := limit } [] positive with
  | refused fault memory event kind abandons =>
      rw [(abandons _ rfl rfl).1] at begins
      cases begins
  | ready loaded memory starts =>
      rw [(starts _ rfl rfl).2]
      exact Outlasts.resume_eq ⟨[], _, .nil _, (Int.toNat_of_nonpos negative).symm, rfl⟩ tooLong
        loaded

/-- An image without bytes, in a memory with room for it, has no report under this limit. -/
theorem program_powTen_limit :
    let options : Options := { memorySize := 16, stepLimit := -(Nat.pow 10 4300 : Nat) }
    0 < options.memorySize ∧ program [] options = .error .numeralTooLong ∧
      ¬ ∃ report, program [] options = .ok report := by
  have tooMany : Numeral.maximalDecimalFigures ≤ 4300 := by decide
  -- The power is never worked out.
  generalize 4300 = figures at tooMany ⊢
  intro options
  have failed : program [] options = .error .numeralTooLong :=
    program_without_steps (Int.neg_nonpos_of_nonneg (Int.natCast_nonneg _))
      (Numeral.not_fitsDecimal_pow tooMany).2
  have positive : (0 : Int) < 16 := by decide
  refine ⟨positive, failed, ?_⟩
  rintro ⟨report, reported⟩
  rw [failed] at reported
  cases reported

end Run

end Arm32
