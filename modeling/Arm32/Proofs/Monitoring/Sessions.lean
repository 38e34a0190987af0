import Arm32.Monitor
import Arm32.Proofs.Execution.Changes

namespace Arm32

/-! Sessions at the monitor. Commands are carried out one after another on one machine,
which each of them leaves changed or, if it fails, changed in part. Whatever they ask for,
memory keeps the size that it was created with, and the flag of a halted machine stays up. -/

/-! ## Seeds -/

namespace Memory

theorem size_of_write {memory after : Memory} {address value : Int} {width : Nat}
    (written : memory.write address width value = .ok after) : after.size = memory.size := by
  rw [write, load] at written
  split at written
  · cases written
    exact size_setBytes _ _ _
  · cases written

theorem size_of_seed {memory after : Memory} {seeds : Seeds}
    (seeded : memory.seed seeds = .ok after) : after.size = memory.size := by
  induction seeds generalizing memory with
  | nil =>
      cases seeded
      rfl
  | cons pair rest induction =>
      rw [seed, List.foldlM_cons] at seeded
      cases written : memory.write pair.1 4 pair.2 with
      | error fault =>
          rw [written] at seeded
          cases seeded
      | ok next =>
          rw [written] at seeded
          rw [← size_of_write written]
          exact induction seeded

/-- Memory that has been created has the size that was asked for. -/
theorem size_of_create {size : Int} {seeds : Seeds} {memory : Memory}
    (created : create size seeds = .ok memory) : 0 < size ∧ (memory.size : Int) = size := by
  rw [create] at created
  split at created
  case isTrue => cases created
  case isFalse positive =>
    cases seeded : (zeros size.toNat).seed seeds with
    | error fault =>
        rw [seeded] at created
        cases created
    | ok result =>
        rw [seeded] at created
        cases created
        rw [size_of_seed seeded, size_zeros]
        omega

end Memory

/-! ## Commands -/

namespace Monitor

theorem evolves_perform (command : Command) : Action.Evolves (perform command) := by
  cases command with
  | read address width =>
      exact (Action.evolves_readMemory address width).bind fun _ => Action.evolves_pure _
  | write address width value =>
      exact (Action.evolves_writeMemory address width value).bind fun _ => Action.evolves_pure _
  | load block address =>
      exact (Action.evolves_loadMemory block address).bind fun _ => Action.evolves_pure _
  | readString address =>
      exact Action.evolves_get fun _ =>
        (Action.evolves_liftFault _).bind fun _ => Action.evolves_pure _
  | watch addresses => exact Action.evolves_get fun _ => Action.evolves_pure _
  | getRegister register =>
      exact (Action.evolves_readRegister register).bind fun _ => Action.evolves_pure _
  | setRegister register value =>
      exact (Action.evolves_writeRegister register _).bind fun _ => Action.evolves_pure _
  | setProgramCounter value =>
      exact (Action.evolves_setProgramCounter _).bind fun _ =>
        Action.evolves_get fun _ => Action.evolves_pure _
  | setFlags negative? zero? carry? overflow? =>
      exact (Action.evolves_setFlags negative? zero? carry? overflow?).bind fun _ =>
        Action.evolves_pure _
  | halt => exact Action.evolves_halt.bind fun _ => Action.evolves_pure _
  | loadImage image =>
      exact (Action.evolves_loadImage image).bind fun _ => Action.evolves_pure _
  | executeWords words =>
      exact (Action.evolves_forM Action.evolves_executeWord).bind fun _ => Action.evolves_pure _
  | execute instruction =>
      exact (Action.evolves_execute instruction).bind fun _ => Action.evolves_pure _
  | step => exact Action.evolves_step.bind fun _ => Action.evolves_pure _
  | systemCall => exact Action.evolves_systemCall.bind fun _ => Action.evolves_pure _
  | shiftRegister register kind amount =>
      exact (Action.evolves_shiftedRegister register kind amount).bind fun _ =>
        Action.evolves_pure _
  | attachConsole console? =>
      exact (Action.evolves_modify fun machine => .console machine console?).bind fun _ =>
        Action.evolves_pure _
  | writeText text => exact (Action.evolves_writeText text).bind fun _ => Action.evolves_pure _
  | clearLastWrite =>
      exact (Action.evolves_modify fun machine => .console machine _).bind fun _ =>
        Action.evolves_pure _
  | inspect => exact Action.evolves_get fun _ => Action.evolves_pure _
  | listRegisters => exact Action.evolves_get fun _ => Action.evolves_pure _

/-! ## Sessions -/

/-- The machine after some commands. One that fails does not keep the others from being
carried out. -/
def left (machine : Machine) (commands : List Command) : Machine :=
  commands.foldl (fun machine command => Action.machineLeft ((perform command).run machine)) machine

theorem left_append (machine : Machine) (earlier later : List Command) :
    left machine (earlier ++ later) = left (left machine earlier) later :=
  List.foldl_append

theorem left_evolves (machine : Machine) (commands : List Command) :
    machine.Evolves (left machine commands) := by
  induction commands generalizing machine with
  | nil => exact .refl
  | cons command rest induction => exact (evolves_perform command machine).trans (induction _)

end Monitor

end Arm32
