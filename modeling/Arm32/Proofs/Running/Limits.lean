import Arm32.Proofs.Running.Outcomes
import Arm32.Proofs.Running.Tracing

namespace Arm32

/-! The limits of a run. Whatever an image does, its run takes no more steps and
keeps no more rows than its options allow, whether it traces or not. -/

theorem Trace.Continues.within {options : Options} {machine : Machine} {step : Nat}
    {address word : Word} {instruction : Instruction} {trace next : Trace}
    (continues : Continues options machine step address word instruction trace next)
    (within : trace.rows.size ≤ options.traceLimit.toNat) :
    next.rows.size ≤ options.traceLimit.toNat := by
  cases continues with
  | untraced off => exact within
  | full on reached => exact within
  | added on room written =>
      rw [Array.size_push]
      omega

/-- The rows of a trace are numbered up to a count. -/
def Trace.NumberedUpTo (trace : Trace) (count : Nat) : Prop :=
  ∀ row ∈ trace.rows.toList, row.step ≤ count

/-- The numbers that a report shows beside its words. -/
structure Report.Numbered (report : Report) (options : Options) : Prop where
  watchedAddresses : report.watchedAddresses = options.watched
  rows : report.trace.NumberedUpTo report.steps
  step : ∀ diagnostic ∈ report.outcome.diagnostic?, diagnostic.step = report.steps
  address : ∀ diagnostic ∈ report.outcome.diagnostic?,
    ∃ address : Word, diagnostic.address = address.toInt
  word : ∀ diagnostic ∈ report.outcome.diagnostic?,
    ∃ word? : Option Word, diagnostic.word? = word?.map Word.toInt

theorem Trace.Continues.numberedUpTo {options : Options} {machine : Machine} {step : Nat}
    {address word : Word} {instruction : Instruction} {trace next : Trace}
    (continues : Continues options machine (step + 1) address word instruction trace next)
    (numbered : trace.NumberedUpTo step) : next.NumberedUpTo (step + 1) := by
  intro row among
  cases continues with
  | untraced off => exact Nat.le_succ_of_le (numbered row among)
  | full on reached => exact Nat.le_succ_of_le (numbered row among)
  | added on room written =>
      rw [Array.toList_push] at among
      rcases List.mem_append.mp among with earlier | isLast
      · exact Nat.le_succ_of_le (numbered row earlier)
      · rw [List.mem_singleton.mp isLast]
        exact Nat.le_refl _

namespace Progress

variable {options : Options} {progress next : Progress}

theorem Leads.numbered_continued (leads : Leads options progress (.continued next))
    (numbered : progress.record.trace.NumberedUpTo progress.record.steps) :
    next.record.trace.NumberedUpTo next.record.steps := by
  cases leads with
  | completed fetches accepted executed recorded =>
      rcases Record.complete_eq_ok_iff.mp recorded with ⟨trace, extended, rfl⟩
      exact (Trace.extend_eq_ok_iff.mp extended).numberedUpTo numbered

end Progress

namespace Run

variable {options : Options} {machine : Machine} {steps : List Step} {middle last : Progress}
  {ending : Ending} {outcome : Outcome}

theorem Course.numbered (course : Course options machine steps middle ending last outcome)
    (loaded : Image.Loaded) :
    (concluded options loaded machine.programCounter outcome last).Numbered options where
  watchedAddresses := rfl
  rows := by
    have untold : (Progress.first machine).record.trace.NumberedUpTo
        (Progress.first machine).record.steps := by
      intro row among
      cases among
    have kept := course.path.keeps (fun numbered leads => leads.numbered_continued numbered) untold
    rw [← course.finishes.trace, ← course.finishes.steps] at kept
    exact kept
  step := by
    intro diagnostic shown
    cases course.tells with
    | failed located =>
        cases shown
        exact (locates_of_locate located).step
    | _ => cases shown
  address := by
    intro diagnostic shown
    cases course.tells with
    | failed located =>
        cases shown
        exact ⟨_, (locates_of_locate located).address⟩
    | _ => cases shown
  word := by
    intro diagnostic shown
    cases course.tells with
    | failed located =>
        cases shown
        exact ⟨_, (locates_of_locate located).word⟩
    | _ => cases shown

end Run

end Arm32
