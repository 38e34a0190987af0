import Arm32.Proofs.Execution.Atomicity
import Arm32.Proofs.Running.Rows

namespace Arm32

/-! The cycles of a run. A cycle leads to one of five things, and to no misuse
from whatever state it starts: the instruction that it executes and writes into
the trace has just been decoded. What every cycle keeps, a run keeps. A run can end in
a misuse only where it has used up its cycles and cannot name their limit. -/

namespace Progress

variable {options : Options} {progress : Progress}

/-! ## One cycle -/

/-- The record of the instruction that comes next. -/
def arrived (progress : Progress) : Record :=
  progress.record.arrive progress.machine.programCounter

/-- The same once its word is known. -/
def fetched (progress : Progress) (word : Word) : Record :=
  { progress.arrived with word? := some word }

/-- The same once its meaning is known, and the system call it makes. -/
def decoded (progress : Progress) (word : Word) (instruction : Instruction) : Record :=
  Record.noteCall { progress.fetched word with instruction? := some instruction }
    (progress.machine.pendingCall? instruction)

/-- No breakpoint is in the way, and the next word is in memory. -/
structure Fetches (options : Options) (progress : Progress) (word : Word) : Prop where
  passes : options.breakpoints.contains progress.machine.programCounter.toInt = false
  reads : ∃ value, progress.machine.memory.read progress.machine.programCounter.toInt 4 =
    .ok value ∧ word = Word.ofInt value

/-- What a cycle can lead to. -/
inductive Leads (options : Options) (progress : Progress) : Cycle → Prop where
  | stopped
      (reached : options.breakpoints.contains progress.machine.programCounter.toInt = true) :
      Leads options progress (.ended .breakpoint ⟨progress.machine, progress.arrived⟩)
  | unread {fault : Fault}
      (passes : options.breakpoints.contains progress.machine.programCounter.toInt = false)
      (outside : progress.machine.memory.read progress.machine.programCounter.toInt 4 =
        .error fault) :
      Leads options progress (.ended (.failed fault) ⟨progress.machine, progress.arrived⟩)
  | undecoded {word : Word} {fault : Fault} (fetches : Fetches options progress word)
      (refused : Instruction.ofWord word = .error fault) :
      Leads options progress (.ended (.failed fault) ⟨progress.machine, progress.fetched word⟩)
  | failed {word : Word} {instruction : Instruction} {fault : Fault} {after : Machine}
      (fetches : Fetches options progress word)
      (accepted : Instruction.ofWord word = .ok instruction)
      (executed : (Action.execute instruction).run progress.machine.clearLastWrite =
        .error (.fault fault) after) :
      Leads options progress (.ended (.failed fault) ⟨after, progress.decoded word instruction⟩)
  | completed {word : Word} {instruction : Instruction} {after : Machine} {record : Record}
      (fetches : Fetches options progress word)
      (accepted : Instruction.ofWord word = .ok instruction)
      (executed : (Action.execute instruction).run progress.machine.clearLastWrite =
        .ok () after)
      (recorded : (progress.decoded word instruction).complete options after word instruction =
        .ok record) :
      Leads options progress (.continued ⟨after, record⟩)

/-- Every cycle leads somewhere. -/
theorem cycle_leads (options : Options) (progress : Progress) :
    ∃ next, progress.cycle options = .ok next ∧ Leads options progress next := by
  rcases progress with ⟨machine, record⟩
  unfold cycle
  dsimp only
  cases passes : options.breakpoints.contains machine.programCounter.toInt with
  | true => exact ⟨_, rfl, .stopped passes⟩
  | false =>
      rw [if_neg Bool.false_ne_true]
      cases reads : machine.memory.read machine.programCounter.toInt 4 with
      | error fault => exact ⟨_, rfl, .unread passes reads⟩
      | ok value =>
          dsimp only
          have fetches : Fetches options ⟨machine, record⟩ (Word.ofInt value) :=
            ⟨passes, value, reads, rfl⟩
          cases accepted : Instruction.ofWord (Word.ofInt value) with
          | error fault => exact ⟨_, rfl, .undecoded fetches accepted⟩
          | ok instruction =>
              dsimp only
              have wellFormed := Instruction.ofWord_wellFormed accepted
              cases executed : (Action.execute instruction).run machine.clearLastWrite with
              | error failure after =>
                  -- What has been decoded fails by a fault, if it fails.
                  rcases Action.perform_error_is_fault wellFormed
                    (Action.execute_error executed) with ⟨fault, rfl⟩
                  exact ⟨_, rfl, .failed fetches accepted executed⟩
              | ok result after =>
                  rcases (decoded ⟨machine, record⟩ (Word.ofInt value)
                    instruction).complete_succeeds options after (Word.ofInt value)
                    wellFormed with ⟨completed, recorded⟩
                  refine ⟨.continued ⟨after, completed⟩, ?_,
                    .completed fetches accepted executed recorded⟩
                  dsimp only [decoded, fetched, arrived] at recorded
                  dsimp only
                  rw [recorded]

/-- A cycle leads to nothing else. -/
theorem Leads.cycle_eq {next : Cycle} (leads : Leads options progress next) :
    progress.cycle options = .ok next := by
  rcases progress with ⟨machine, record⟩
  unfold cycle
  dsimp only
  cases leads with
  | stopped reached => rw [if_pos reached]; rfl
  | unread passes outside =>
      dsimp only at passes outside
      rw [passes, if_neg Bool.false_ne_true, outside]
      rfl
  | undecoded fetches refused =>
      rcases fetches with ⟨passes, value, reads, rfl⟩
      dsimp only at passes reads
      rw [passes, if_neg Bool.false_ne_true, reads]
      dsimp only
      rw [refused]
      rfl
  | failed fetches accepted executed =>
      rcases fetches with ⟨passes, value, reads, rfl⟩
      dsimp only at passes reads executed
      rw [passes, if_neg Bool.false_ne_true, reads]
      dsimp only
      rw [accepted]
      dsimp only
      rw [executed]
      rfl
  | completed fetches accepted executed recorded =>
      rcases fetches with ⟨passes, value, reads, rfl⟩
      dsimp only at passes reads executed
      dsimp only [decoded, fetched, arrived] at recorded
      rw [passes, if_neg Bool.false_ne_true, reads]
      dsimp only
      rw [accepted]
      dsimp only
      rw [executed]
      dsimp only
      rw [recorded]

/-! ## Runs -/

section

variable {ending : Ending} {last : Progress} {limit : Nat}

theorem run_of_halted (stopped : progress.machine.halted = true) :
    progress.run options limit = .ok (.halted, progress) := by
  cases limit with
  | zero => rw [run, if_pos stopped]
  | succ limit => rw [run, if_pos stopped]

theorem run_of_exhausted (running : progress.machine.halted = false)
    (fits : Numeral.FitsDecimal options.stepLimit) :
    progress.run options 0 =
      .ok (.failed (.stepLimitExceeded ⟨options.stepLimit, fits⟩), progress) := by
  rw [run, running, if_neg Bool.false_ne_true, Failure.naming_of_fits fits]

theorem run_of_unnamed (running : progress.machine.halted = false)
    (tooLong : ¬ Numeral.FitsDecimal options.stepLimit) :
    progress.run options 0 = .error .numeralTooLong := by
  rw [run, running, if_neg Bool.false_ne_true, Failure.naming_of_not_fits tooLong]

theorem run_of_continued {next : Progress} (running : progress.machine.halted = false)
    (leads : Leads options progress (.continued next)) :
    progress.run options (limit + 1) = next.run options limit := by
  rw [run, running, if_neg Bool.false_ne_true, leads.cycle_eq]

theorem run_of_ended (running : progress.machine.halted = false)
    (leads : Leads options progress (.ended ending last)) :
    progress.run options (limit + 1) = .ok (ending, last) := by
  rw [run, running, if_neg Bool.false_ne_true, leads.cycle_eq]

/-- A run that has used up its cycles has ended where it was. -/
theorem last_eq_of_run_zero (ran : progress.run options 0 = .ok (ending, last)) :
    last = progress := by
  cases stopped : progress.machine.halted with
  | true =>
      rw [run_of_halted stopped] at ran
      cases ran
      rfl
  | false =>
      by_cases fits : Numeral.FitsDecimal options.stepLimit
      · rw [run_of_exhausted stopped fits] at ran
        cases ran
        rfl
      · rw [run_of_unnamed stopped fits] at ran
        cases ran

/-- What every cycle keeps holds at the end of a run. -/
theorem holds_of_run {Holds : Progress → Prop}
    (continues : ∀ {progress next}, Holds progress →
      Leads options progress (.continued next) → Holds next)
    (ends : ∀ {progress ending last}, Holds progress →
      Leads options progress (.ended ending last) → Holds last)
    (starts : Holds progress) (ran : progress.run options limit = .ok (ending, last)) :
    Holds last := by
  -- A cycle that continues the run leaves one cycle less for the rest of it.
  induction limit generalizing progress with
  | zero =>
      cases last_eq_of_run_zero ran
      exact starts
  | succ limit induction =>
      cases stopped : progress.machine.halted with
      | true =>
          rw [run_of_halted stopped] at ran
          cases ran
          exact starts
      | false =>
          rcases cycle_leads options progress with ⟨next, -, leads⟩
          cases next with
          | continued next =>
              rw [run_of_continued stopped leads] at ran
              exact induction (continues starts leads) ran
          | ended ending last =>
              rw [run_of_ended stopped leads] at ran
              cases ran
              exact ends starts leads

/-- Two runs go side by side until one of them ends, and then so does the other, unless
the first one ends in a way that the second is excused from. -/
theorem run_related {other : Options} {twin : Progress} (Related : Progress → Progress → Prop)
    (Excused : Ending → Prop) (sameLimit : other.stepLimit = options.stepLimit)
    (halted : ∀ {progress twin}, Related progress twin →
      twin.machine.halted = progress.machine.halted)
    (continues : ∀ {progress twin next}, Related progress twin →
      Leads options progress (.continued next) →
      ∃ twinNext, Leads other twin (.continued twinNext) ∧ Related next twinNext)
    (ends : ∀ {progress twin ending last}, Related progress twin →
      Leads options progress (.ended ending last) →
      Excused ending ∨
        ∃ twinLast, Leads other twin (.ended ending twinLast) ∧ Related last twinLast)
    (starts : Related progress twin) (ran : progress.run options limit = .ok (ending, last)) :
    Excused ending ∨ ∃ twinLast, twin.run other limit = .ok (ending, twinLast) ∧
      Related last twinLast := by
  -- The two are related before every cycle, which is what the induction carries.
  induction limit generalizing progress twin with
  | zero =>
      have together := halted starts
      cases stopped : progress.machine.halted with
      | true =>
          rw [run_of_halted stopped] at ran
          cases ran
          exact .inr ⟨twin, run_of_halted (together.trans stopped), starts⟩
      | false =>
          by_cases fits : Numeral.FitsDecimal options.stepLimit
          · rw [run_of_exhausted stopped fits] at ran
            cases ran
            have fitsAgain : Numeral.FitsDecimal other.stepLimit := sameLimit ▸ fits
            have ranAgain := run_of_exhausted (together.trans stopped) fitsAgain
            simp only [sameLimit] at ranAgain
            exact .inr ⟨twin, ranAgain, starts⟩
          · rw [run_of_unnamed stopped fits] at ran
            cases ran
  | succ limit induction =>
      have together := halted starts
      cases stopped : progress.machine.halted with
      | true =>
          rw [run_of_halted stopped] at ran
          cases ran
          exact .inr ⟨twin, run_of_halted (together.trans stopped), starts⟩
      | false =>
          rcases cycle_leads options progress with ⟨next, -, leads⟩
          cases next with
          | continued next =>
              rcases continues starts leads with ⟨twinNext, twinLeads, nexts⟩
              rw [run_of_continued stopped leads] at ran
              rw [run_of_continued (together.trans stopped) twinLeads]
              exact induction nexts ran
          | ended ending last =>
              rw [run_of_ended stopped leads] at ran
              cases ran
              rcases ends starts leads with excused | ⟨twinLast, twinLeads, lasts⟩
              · exact .inl excused
              · exact .inr ⟨twinLast, run_of_ended (together.trans stopped) twinLeads, lasts⟩

/-- The same where the second run is excused from nothing. -/
theorem run_alike {other : Options} {twin : Progress} (Related : Progress → Progress → Prop)
    (sameLimit : other.stepLimit = options.stepLimit)
    (halted : ∀ {progress twin}, Related progress twin →
      twin.machine.halted = progress.machine.halted)
    (continues : ∀ {progress twin next}, Related progress twin →
      Leads options progress (.continued next) →
      ∃ twinNext, Leads other twin (.continued twinNext) ∧ Related next twinNext)
    (ends : ∀ {progress twin ending last}, Related progress twin →
      Leads options progress (.ended ending last) →
      ∃ twinLast, Leads other twin (.ended ending twinLast) ∧ Related last twinLast)
    (starts : Related progress twin) (ran : progress.run options limit = .ok (ending, last)) :
    ∃ twinLast, twin.run other limit = .ok (ending, twinLast) ∧ Related last twinLast := by
  rcases run_related Related (fun _ => False) sameLimit halted continues
    (fun related leads => .inr (ends related leads)) starts ran with impossible | together
  · exact impossible.elim
  · exact together

end

end Progress

end Arm32
