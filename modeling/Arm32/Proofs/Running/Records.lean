import Arm32.Proofs.Running.Cycles
import Arm32.Run

namespace Arm32

/-! The records of runs. A fault ends up in the report of a run, which shows the
instruction that failed, so every instruction in a record has to be one that can be
shown. -/

/-- The instruction of a record, if there is one, is well-formed. -/
def Record.Legible (record : Record) : Prop :=
  ∀ instruction, record.instruction? = some instruction → instruction.WellFormed

namespace Progress

variable {options : Options} {progress : Progress}

theorem legible_arrived (progress : Progress) : progress.arrived.Legible := by
  intro instruction known
  cases known

theorem legible_fetched (progress : Progress) (word : Word) :
    (progress.fetched word).Legible := by
  intro instruction known
  cases known

theorem legible_decoded (progress : Progress) {word : Word} {instruction : Instruction}
    (accepted : Instruction.ofWord word = .ok instruction) :
    (progress.decoded word instruction).Legible := by
  intro known equal
  cases equal
  exact Instruction.ofWord_wellFormed accepted

theorem Leads.legible_continued {next : Progress}
    (leads : Leads options progress (.continued next)) : next.record.Legible := by
  cases leads with
  | completed fetches accepted executed recorded =>
      -- Completing an instruction keeps it in the record.
      rcases Record.complete_eq_ok_iff.mp recorded with ⟨trace, -, rfl⟩
      exact progress.legible_decoded accepted

theorem Leads.legible_ended {ending : Ending} {last : Progress}
    (leads : Leads options progress (.ended ending last)) : last.record.Legible := by
  cases leads with
  | stopped reached => exact progress.legible_arrived
  | unread passes outside => exact progress.legible_arrived
  | undecoded fetches refused => exact progress.legible_fetched _
  | failed fetches accepted executed => exact progress.legible_decoded accepted

end Progress

namespace Run

theorem locate_succeeds (fault : Fault) {record : Record} (legible : record.Legible) :
    Succeeds (locate fault record) := by
  unfold locate
  cases known : record.instruction? with
  | none => exact .pure _
  | some instruction =>
      have text := Instruction.text_succeeds (legible instruction known) (some record.address.toInt)
      exact (text.map some).bind fun _ => .pure _

theorem outcomeOf_succeeds (ending : Ending) {record : Record} (legible : record.Legible) :
    Succeeds (outcomeOf ending record) := by
  cases ending with
  | halted => exact ⟨_, rfl⟩
  | breakpoint => exact ⟨_, rfl⟩
  | failed fault => exact (locate_succeeds fault legible).map Outcome.failed

end Run

end Arm32
