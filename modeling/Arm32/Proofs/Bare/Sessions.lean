import Arm32.Proofs.Bare.Agreement
import Arm32.Proofs.Monitoring.Sessions

namespace Arm32.Bare

/-! Sessions in bare numbers. Commands are carried out one after another on one machine,
which each of them leaves changed or, if it fails, changed in part. Whatever they ask for,
no number gets out of the bounds of its register or its byte, no register and no byte is
lost or added, and the flag of a halted machine stays up. -/

namespace Action

/-- Reads the word at an address that lies in memory. -/
def watchAddress (address : Int) : Action Unit := do
  if 0 ≤ address ∧ address + 4 ≤ (← get).memory.size then
    let _ ← readMemory address 4

def watch (addresses : List Int) : Action Unit :=
  addresses.forM watchAddress

/-- What a command does to a machine, without what it replies. -/
def carryOut : Monitor.Command → Action Unit
  | .read address width => do
      let _ ← readMemory address width
  | .write address width value => writeMemory address width value
  | .load block address => loadMemory (numbers block) address
  | .readString address => do
      let _ ← lift ((← get).memory.readString address)
  | .watch addresses => watch addresses
  | .getRegister register => do
      let _ ← getRegister register
  | .setRegister register value => setRegister register value
  | .setProgramCounter value => do
      setProgramCounter value
      let _ ← programCounter
  | .setFlags negative? zero? carry? overflow? => setFlags negative? zero? carry? overflow?
  | .halt => halt
  | .loadImage image => loadImage image
  | .executeWords words => words.forM executeWord
  | .execute instruction => execute instruction
  | .step => step
  | .systemCall => systemCall
  | .shiftRegister register kind amount => do
      let _ ← shiftedRegister register kind amount
  | .attachConsole console? => modify ({ · with console? })
  | .writeText text => writeText text
  | .clearLastWrite =>
      modify fun machine => { machine with console? := machine.console?.map Console.clearLast }
  | .inspect => pure ()
  | .listRegisters => pure ()

def machineLeft {α : Type} : EStateM.Result Failure Machine α → Machine
  | .ok _ after | .error _ after => after

end Action

/-- The machine after some commands. One that fails does not keep the others from being
carried out. -/
def left (machine : Machine) (commands : List Monitor.Command) : Machine :=
  commands.foldl (fun machine command =>
    Action.machineLeft ((Action.carryOut command).run machine)) machine

/-- Every register holds a word and every place of the memory a byte, and there are as many
of them as there have to be. -/
structure Machine.Sound (machine : Machine) (size : Int) : Prop where
  registerCount : machine.registers.length = 16
  registers : ∀ value ∈ machine.registers, 0 ≤ value ∧ value < 0x100000000
  byteCount : (machine.memory.bytes.length : Int) = size
  bytes : ∀ byte ∈ machine.memory.bytes, 0 ≤ byte ∧ byte ≤ 255

theorem sound_toBare (machine : Arm32.Machine) : machine.toBare.Sound machine.memory.size where
  registerCount := machine.length_registers_toBare
  registers := by
    intro value among
    rcases List.mem_map.mp among with ⟨word, -, rfl⟩
    have bound := word.isLt
    simp only [Word.toInt]
    omega
  byteCount := by
    simp only [Arm32.Machine.toBare, Memory.toBare, numbers, List.length_map, Memory.length_slice]
  bytes := by
    intro number among
    rcases List.mem_map.mp among with ⟨byte, -, rfl⟩
    have bound := byte.toNat_lt
    omega

/-! ## Commands -/

namespace Action

theorem run_watchAddress (machine : Arm32.Machine) (address : Int) :
    (watchAddress address).run machine.toBare = .ok () machine.toBare := by
  rw [watchAddress, EStateM.run_bind, EStateM.run_get]
  dsimp only
  by_cases inside : machine.memory.Contains address 4
  · have within : 0 ≤ address ∧ address + 4 ≤ machine.toBare.memory.size := inside
    rw [if_pos within, EStateM.run_bind, shows_readMemory, Arm32.Action.readMemory,
      EStateM.run_bind, EStateM.run_get]
    dsimp only
    rw [Arm32.Memory.read, if_pos inside]
    rfl
  · have outside : ¬ (0 ≤ address ∧ address + 4 ≤ machine.toBare.memory.size) := inside
    rw [if_neg outside]
    rfl

theorem shows_watch (addresses : List Int) :
    Shows (watch addresses) (get >>= fun machine => pure (Monitor.Reply.words
      (machine.memory.watch addresses))) fun _ => () := by
  intro machine
  change (watch addresses).run machine.toBare = .ok () machine.toBare
  induction addresses with
  | nil => rfl
  | cons address addresses induction =>
      change (watchAddress address >>= fun _ => watch addresses).run machine.toBare = _
      rw [EStateM.run_bind, run_watchAddress]
      exact induction

theorem shows_carryOut (command : Monitor.Command) :
    Shows (carryOut command) (Monitor.perform command) fun _ => () := by
  have done {bare : Action Unit} {action : Arm32.Action Unit} (shows : Shows bare action id) :
      Shows bare (action >>= fun _ => pure Monitor.Reply.done) fun _ => () := by
    have finished := shows.bind fun _ => shows_pure Monitor.Reply.done fun _ => ()
    rwa [bind_pure_unit] at finished
  cases command with
  | read address width =>
      exact (shows_readMemory address width).bind fun _ => shows_pure _ fun _ => ()
  | write address width value => exact done (shows_writeMemory address width value)
  | load block address => exact done (shows_loadMemory block address)
  | readString address =>
      exact shows_get.bind fun machine =>
        (shows_liftFault (machine.memory.readString_toBare address)).bind fun _ =>
          shows_pure _ fun _ => ()
  | watch addresses => exact shows_watch addresses
  | getRegister register =>
      exact (shows_getRegister register).bind fun _ => shows_pure _ fun _ => ()
  | setRegister register value => exact done (shows_setRegister register value)
  | setProgramCounter value =>
      exact (shows_setProgramCounter value).bind fun _ =>
        .programCounter fun _ => shows_pure _ fun _ => ()
  | setFlags negative? zero? carry? overflow? =>
      exact done (shows_setFlags negative? zero? carry? overflow?)
  | halt => exact done shows_halt
  | loadImage image =>
      have loaded := (shows_loadImage image).bind fun value =>
        shows_pure (Monitor.Reply.loaded value) fun _ => ()
      rwa [bind_pure_unit] at loaded
  | executeWords words => exact done (shows_forM shows_executeWord)
  | execute instruction => exact done (shows_execute instruction)
  | step => exact done shows_step
  | systemCall => exact done shows_systemCall
  | shiftRegister register kind amount =>
      exact (shows_shiftedRegister register kind amount).bind fun _ => shows_pure _ fun _ => ()
  | attachConsole console? => exact done (shows_modify fun _ => rfl)
  | writeText text => exact done (shows_writeText text)
  | clearLastWrite => exact done (shows_modify fun _ => rfl)
  | inspect => exact fun _ => rfl
  | listRegisters => exact fun _ => rfl

end Action

/-! ## Sessions -/

/-- A session in bare numbers is the session on the machine, in its numbers. -/
theorem left_toBare (machine : Arm32.Machine) (commands : List Monitor.Command) :
    left machine.toBare commands = (Monitor.left machine commands).toBare := by
  induction commands generalizing machine with
  | nil => rfl
  | cons command rest induction =>
      have next : Action.machineLeft ((Action.carryOut command).run machine.toBare) =
          (Arm32.Action.machineLeft ((Monitor.perform command).run machine)).toBare := by
        rw [Action.shows_carryOut command machine]
        cases (Monitor.perform command).run machine <;> rfl
      rw [left, Monitor.left, List.foldl_cons, List.foldl_cons, next]
      exact induction _

theorem create_eq_ok {size : Int} {seeds : Arm32.Memory.Seeds} {memory : Memory}
    (created : Memory.create size seeds = .ok memory) :
    ∃ bytes : Arm32.Memory, Arm32.Memory.create size seeds = .ok bytes ∧
      memory = bytes.toBare := by
  rw [Memory.create_toBare] at created
  cases bytes : Arm32.Memory.create size seeds with
  | error failure =>
      rw [bytes] at created
      cases created
  | ok result =>
      rw [bytes] at created
      cases created
      exact ⟨result, rfl, rfl⟩

/-- From its creation on, whatever is asked of it and whatever of that fails, a machine has
sixteen registers that each hold a word and a memory of as many bytes as it was created
with, and once it has halted it stays halted. Its numbers are those of the machine that is
asked for the same. -/
theorem left_sound {size : Int} {seeds : Arm32.Memory.Seeds} {memory : Memory}
    (created : Memory.create size seeds = .ok memory) (console? : Option Console)
    (earlier later : List Monitor.Command) :
    let start : Machine := { memory, console? }
    0 < size ∧ (left start earlier).Sound size ∧
      ((left start earlier).halted = true → (left start (earlier ++ later)).halted = true) ∧
      ∃ bytes : Arm32.Memory, Arm32.Memory.create size seeds = .ok bytes ∧
        left start earlier = (Monitor.left { memory := bytes, console? } earlier).toBare := by
  intro start
  rcases create_eq_ok created with ⟨bytes, createdBytes, rfl⟩
  rcases Arm32.Memory.size_of_create createdBytes with ⟨positive, sized⟩
  have begun : start = ({ memory := bytes, console? } : Arm32.Machine).toBare := rfl
  have ends := left_toBare { memory := bytes, console? }
  rw [begun]
  refine ⟨positive, ?_, ?_, bytes, createdBytes, ends earlier⟩
  · have same := (Monitor.left_evolves { memory := bytes, console? } earlier).size
    rw [ends, ← sized, ← same]
    exact sound_toBare _
  · rw [ends, ends, Monitor.left_append]
    exact (Monitor.left_evolves _ later).halted

/-- A halted machine of eight bytes that is asked for a register it does not have, for the
write of a double word that fits only in part, and to load from outside its memory. -/
theorem left_sound_refused :
    let earlier : List Monitor.Command := [
      .setRegister 2 (-1), .setRegister 16 0, .halt, .setProgramCounter (-4),
      .execute ⟨.always, .store .doubleWord ⟨.before, false, .minus, 2, 1, .immediate (-4)⟩⟩]
    let later : List Monitor.Command := [
      .execute ⟨.always, .move true (-3) (.immediate (-0x100000001) false 99) true⟩,
      .execute ⟨.always, .load .word ⟨.before, true, .plus, 0, 1, .immediate 0x100⟩⟩]
    let start : Machine := { memory := ⟨8, [0xFE, 0xFF, 0xFF, 0xFF, 0, 0, 0, 0]⟩ }
    Memory.create 8 [(0, -2)] = .ok start.memory ∧ (left start earlier).Sound 8 ∧
      (left start earlier).registers =
        [0, 0, 0xFFFFFFFF, 0, 0, 0, 0, 0, 0, 0, 0, 0, 0, 0, 0, 0] ∧
      (left start earlier).memory.bytes =
        [0xFE, 0xFF, 0xFF, 0xFF, 0xFF, 0xFF, 0xFF, 0xFF] ∧
      (left start (earlier ++ later)).halted = true := by
  intro earlier later start
  have created : Memory.create 8 [(0, -2)] = .ok start.memory := by decide
  rcases left_sound created none earlier later with ⟨-, sound, halted, -⟩
  exact ⟨created, sound, by decide +kernel, by decide +kernel, halted (by decide +kernel)⟩

end Arm32.Bare
