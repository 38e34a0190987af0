import Arm32.Monitor
import Arm32.Proofs.Execution.Effects
import Arm32.Proofs.Memory.Bytes
import Mathlib.Algebra.BigOperators.Intervals
import Mathlib.Algebra.BigOperators.Ring.Finset
import Mathlib.Tactic.Ring

namespace Arm32

/-! Accesses to memory from outside any program, one after another. Memory is the map
from addresses to bytes that the accesses make of it: at each address stands what an
access that succeeded put there last, and zero where none did. -/

/-- One access to memory. Strings and watched words are read without a width. -/
inductive Access where
  | read (address : Int) (width : Nat)
  | write (address : Int) (width : Nat) (value : Int)
  | load (block : List UInt8) (address : Int)
  | readString (address : Int)
  | watch (addresses : List Int)
deriving Repr

namespace Access

def command : Access → Monitor.Command
  | .read address width => .read address width
  | .write address width value => .write address width value
  | .load block address => .load block address
  | .readString address => .readString address
  | .watch addresses => .watch addresses

/-- The first address and the number of the bytes that are accessed. -/
def extent? : Access → Option (Int × Nat)
  | .read address width => some (address, width)
  | .write address width _ => some (address, width)
  | .load block address => some (address, block.length)
  | .readString _ | .watch _ => none

/-- Some of the bytes are not in a memory of the size. -/
def Beyond (size address : Int) (width : Nat) : Prop :=
  address < 0 ∨ size < address + width

instance (size address : Int) (width : Nat) : Decidable (Beyond size address width) :=
  inferInstanceAs (Decidable (_ ∨ _))

/-- The byte that an access puts at an index, if it succeeds and covers the index. Of a
value, only the part that fits in the width is written. -/
def put? (size index : Int) : Access → Option UInt8
  | .write address width value =>
      if Beyond size address width ∨ index < address ∨ address + width ≤ index then none
      else some (UInt8.ofNat (value % 256 ^ width / 256 ^ (index - address).toNat % 256).toNat)
  | .load block address =>
      if Beyond size address block.length ∨ index < address then none
      else block[(index - address).toNat]?
  | .read _ _ | .readString _ | .watch _ => none

/-- The byte that the last of the accesses to put one at an index has put there. -/
def lastPut (size index : Int) (accesses : List Access) : UInt8 :=
  (accesses.filterMap (put? size index)).getLast?.getD 0

/-- The machine after accesses, whether they succeed or fail. -/
def performAll (machine : Machine) (accesses : List Access) : Machine :=
  accesses.foldl (fun reached access =>
    Action.machineLeft ((Monitor.perform access.command).run reached)) machine

end Access

/-! ## Bytes of values -/

namespace LittleEndian

/-- A digit of what fits in a width is the same digit of the value. -/
theorem digit_emod {width index : Nat} (value : Int) (inside : index < width) :
    value % 256 ^ width / 256 ^ index % 256 = value / 256 ^ index % 256 := by
  rcases Nat.exists_eq_add_of_lt inside with ⟨rest, rfl⟩
  have place : (256 : Int) ^ index ≠ 0 := pow_ne_zero index (by decide)
  have parts : value % 256 ^ (index + rest + 1) =
      value + 256 ^ index * (256 * (-256 ^ rest * (value / 256 ^ (index + rest + 1)))) := by
    rw [Int.emod_def]
    ring
  rw [parts, Int.add_mul_ediv_left _ _ place, Int.add_mul_emod_self_left]

theorem getElem?_toBytes_emod {width index : Nat} (value : Int) (inside : index < width) :
    (toBytes width value)[index]? =
      some (UInt8.ofNat (value % 256 ^ width / 256 ^ index % 256).toNat) := by
  have place : ((1 <<< (8 * index) : Nat) : Int) = 256 ^ index := by
    rw [Nat.one_shiftLeft, pow_mul]
    norm_cast
  rw [getElem?_toBytes value inside, place, digit_emod value inside]

end LittleEndian

/-- A number is the sum of its bytes at their places. -/
theorem Memory.valueAt_eq_sum (memory : Memory) (address width : Nat) :
    memory.valueAt address width =
      ∑ index ∈ Finset.range width, 256 ^ index * (memory.byteAt (address + index)).toNat := by
  induction width generalizing address with
  | zero => rfl
  | succ width induction =>
      rw [valueAt, induction, Finset.sum_range_succ', Finset.mul_sum, Nat.add_comm]
      congr 1
      · apply Finset.sum_congr rfl
        intro index _
        rw [pow_succ', mul_assoc, Nat.add_assoc, Nat.add_comm 1 index]
      · rw [pow_zero, one_mul, Nat.add_zero]

namespace Access

/-! ## Single accesses -/

theorem beyond_iff {memory : Memory} {size address : Int} {width : Nat}
    (sized : memory.size = size) :
    Beyond size address width ↔ ¬ memory.Contains address width := by
  subst sized
  simp only [Beyond, Memory.Contains]
  omega

theorem not_beyond_iff {memory : Memory} {size address : Int} {width : Nat}
    (sized : memory.size = size) :
    ¬ Beyond size address width ↔ memory.Contains address width := by
  rw [beyond_iff sized, Decidable.not_not]

theorem perform_read (machine : Machine) (address : Int) (width : Nat) :
    (Monitor.perform (.read address width)).run machine =
      if machine.memory.Contains address width then
        .ok (.number (machine.memory.valueAt address.toNat width)) machine
      else .error (.fault (machine.memory.outOfRange address width)) machine := by
  rw [Monitor.perform, EStateM.run_bind, Action.run_readMemory]
  by_cases inside : machine.memory.Contains address width
  · simp only [if_pos inside]
    rfl
  · simp only [if_neg inside]

theorem perform_load (machine : Machine) (block : List UInt8) (address : Int) :
    (Monitor.perform (.load block address)).run machine =
      if machine.memory.Contains address block.length then
        .ok .done { machine with memory := machine.memory.setBytes address.toNat block }
      else .error (.fault (machine.memory.outOfRange address block.length)) machine := by
  rw [Monitor.perform, EStateM.run_bind, Action.run_loadMemory]
  by_cases inside : machine.memory.Contains address block.length
  · simp only [if_pos inside]
    rfl
  · simp only [if_neg inside]

/-- To write a value is to load the block of its bytes. -/
theorem perform_write (address : Int) (width : Nat) (value : Int) :
    Monitor.perform (.write address width value) =
      Monitor.perform (.load (LittleEndian.toBytes width value) address) :=
  rfl

theorem put?_write (size index address : Int) (width : Nat) (value : Int) :
    put? size index (.write address width value) =
      put? size index (.load (LittleEndian.toBytes width value) address) := by
  simp only [put?, LittleEndian.length_toBytes]
  by_cases before : Beyond size address width ∨ index < address
  · rw [if_pos before, if_pos (or_assoc.mp (.inl before))]
  · rw [if_neg before]
    by_cases after : address + width ≤ index
    · rw [if_pos (.inr (.inr after)), List.getElem?_eq_none]
      rw [LittleEndian.length_toBytes]
      omega
    · rw [if_neg fun outside => (or_assoc.mpr outside).elim before after,
        LittleEndian.getElem?_toBytes_emod _ (by omega)]

/-- An access is refused for no other reason than that memory does not contain its bytes. -/
theorem perform_extent (machine : Machine) {address : Int} {width : Nat} {access : Access}
    (extent : access.extent? = some (address, width)) :
    ∃ reply after, (Monitor.perform access.command).run machine =
      if machine.memory.Contains address width then .ok reply after
      else .error (.fault (machine.memory.outOfRange address width)) machine := by
  cases access with
  | read =>
      cases extent
      exact ⟨_, _, perform_read machine address width⟩
  | write first count value =>
      cases extent
      have written := perform_load machine (LittleEndian.toBytes width value) address
      rw [LittleEndian.length_toBytes] at written
      exact ⟨_, _, written⟩
  | load block =>
      cases extent
      exact ⟨_, _, perform_load machine block address⟩
  | readString => cases extent
  | watch => cases extent

/-! ## Sequences of accesses -/

/-- In a memory of the size stands what the accesses have put there. -/
structure Made (size : Int) (accesses : List Access) (memory : Memory) : Prop where
  sized : memory.size = size
  bytes : ∀ index : Nat, index < memory.size →
    memory.byteAt index = lastPut size index accesses

theorem made_zeros {size : Int} (positive : 0 < size) : Made size [] (.zeros size.toNat) where
  sized := by
    rw [Memory.size_zeros]
    omega
  bytes := fun index _ => Memory.byteAt_zeros size.toNat index

theorem lastPut_concat (size index : Int) (accesses : List Access) (access : Access) :
    lastPut size index (accesses ++ [access]) =
      (access.put? size index).getD (lastPut size index accesses) := by
  rw [lastPut, lastPut, List.filterMap_append]
  cases put : access.put? size index <;> simp [put]

/-- An access that puts nothing anywhere goes well with memory as it is. -/
theorem Made.keep {size : Int} {accesses : List Access} {memory : Memory} {access : Access}
    (made : Made size accesses memory)
    (nothing : ∀ index : Nat, access.put? size index = none) :
    Made size (accesses ++ [access]) memory where
  sized := made.sized
  bytes := by
    intro index inside
    rw [lastPut_concat, nothing index]
    exact made.bytes index inside

theorem Made.load {size : Int} {accesses : List Access} {memory : Memory} {block : List UInt8}
    {address : Int} (made : Made size accesses memory)
    (inside : memory.Contains address block.length) :
    Made size (accesses ++ [.load block address]) (memory.setBytes address.toNat block) where
  sized := by rw [memory.size_setBytes, made.sized]
  bytes := by
    intro index below
    rw [memory.size_setBytes] at below
    have fits := (not_beyond_iff made.sized).mpr inside
    rw [lastPut_concat, put?]
    rcases inside with ⟨start, room⟩
    by_cases before : (index : Int) < address
    · rw [if_pos (.inr before), memory.byteAt_setBytes_outside (by omega)]
      exact made.bytes index below
    · rw [if_neg (not_or.mpr ⟨fits, before⟩)]
      cases found : block[(index - address).toNat]? with
      | none =>
          have past := List.getElem?_eq_none_iff.mp found
          rw [memory.byteAt_setBytes_outside (by omega)]
          exact made.bytes index below
      | some byte =>
          have place : index = address.toNat + (index - address).toNat := by omega
          have written := memory.byteAt_setBytes_inside found (by omega : address.toNat + _ ≤ _)
          rw [← place] at written
          exact written

/-- A value that is written counts as the block of its bytes. -/
theorem Made.write {size : Int} {accesses : List Access} {memory : Memory} {address value : Int}
    {width : Nat}
    (made : Made size (accesses ++ [.load (LittleEndian.toBytes width value) address]) memory) :
    Made size (accesses ++ [.write address width value]) memory where
  sized := made.sized
  bytes := by
    intro index inside
    rw [lastPut_concat, put?_write, ← lastPut_concat]
    exact made.bytes index inside

/-- What is only read stays as it is, whether it can be read or not. -/
theorem machineLeft_read (machine : Machine) (address : Int) (width : Nat) :
    Action.machineLeft ((Monitor.perform (.read address width)).run machine) = machine := by
  rw [perform_read]
  split <;> rfl

theorem machineLeft_readString (machine : Machine) (address : Int) :
    Action.machineLeft ((Monitor.perform (.readString address)).run machine) = machine := by
  simp only [Monitor.perform, EStateM.run_bind, EStateM.run_get, Action.run_liftFault]
  cases machine.memory.readString address <;> rfl

theorem machineLeft_watch (machine : Machine) (addresses : List Int) :
    Action.machineLeft ((Monitor.perform (.watch addresses)).run machine) = machine :=
  rfl

theorem Made.performLoad {size : Int} {accesses : List Access} {machine : Machine}
    (made : Made size accesses machine.memory) (block : List UInt8) (address : Int) :
    Made size (accesses ++ [.load block address])
      (Action.machineLeft ((Monitor.perform (.load block address)).run machine)).memory := by
  rw [perform_load]
  split
  case isTrue inside => exact made.load inside
  case isFalse outside =>
    have refused := (beyond_iff made.sized).mpr outside
    exact made.keep fun index => if_pos (.inl refused)

/-- Whether an access succeeds or fails, memory stays what all accesses have made of it. -/
theorem Made.perform {size : Int} {accesses : List Access} {machine : Machine}
    (made : Made size accesses machine.memory) (access : Access) :
    Made size (accesses ++ [access])
      (Action.machineLeft ((Monitor.perform access.command).run machine)).memory := by
  cases access with
  | read address width =>
      rw [command, machineLeft_read]
      exact made.keep fun _ => rfl
  | write address width value =>
      rw [command, perform_write]
      exact (made.performLoad (LittleEndian.toBytes width value) address).write
  | load block address => exact made.performLoad block address
  | readString address =>
      rw [command, machineLeft_readString]
      exact made.keep fun _ => rfl
  | watch addresses =>
      rw [command, machineLeft_watch]
      exact made.keep fun _ => rfl

theorem Made.performAll {size : Int} {earlier : List Access} {machine : Machine}
    (made : Made size earlier machine.memory) (accesses : List Access) :
    Made size (earlier ++ accesses) (performAll machine accesses).memory := by
  -- Each access moves from those that are to come to the end of those that were made.
  induction accesses generalizing earlier machine with
  | nil =>
      rw [List.append_nil]
      exact made
  | cons access rest induction =>
      rw [List.append_cons]
      exact induction (made.perform access)

/-- What a read finds is the sum of the bytes that were put where it reads. -/
theorem Made.valueAt_eq {size address : Int} {accesses : List Access} {memory : Memory}
    {width : Nat} (made : Made size accesses memory) (inside : memory.Contains address width) :
    memory.valueAt address.toNat width =
      ∑ index ∈ Finset.range width,
        256 ^ index * (lastPut size (address + index) accesses).toNat := by
  rw [memory.valueAt_eq_sum]
  apply Finset.sum_congr rfl
  intro index below
  have within : index < width := Finset.mem_range.mp below
  rcases inside with ⟨start, room⟩
  have place : ((address.toNat + index : Nat) : Int) = address + index := by omega
  rw [made.bytes _ (by omega), place]

/-- What memory of a size answers after accesses. -/
structure Answers (size : Int) (accesses : List Access) (machine : Machine) : Prop where
  sized : machine.memory.size = size
  /-- An access beyond memory is a fault at its address, and changes nothing. -/
  refused : ∀ (access : Access) (address : Int) (width : Nat),
    access.extent? = some (address, width) → Beyond size address width →
      ∃ fault, (Monitor.perform access.command).run machine = .error (.fault fault) machine ∧
        fault.kind = .memoryAccess ∧ fault.faultAddress? = some address
  accepted : ∀ (access : Access) (address : Int) (width : Nat),
    access.extent? = some (address, width) → ¬ Beyond size address width →
      ∃ reply after, (Monitor.perform access.command).run machine = .ok reply after
  read : ∀ address width, ¬ Beyond size address width →
    (Monitor.perform (.read address width)).run machine =
      .ok (.number ((∑ index ∈ Finset.range width,
        256 ^ index * (lastPut size (address + index) accesses).toNat : Nat) : Int)) machine

theorem Made.answers {size : Int} {accesses : List Access} {machine : Machine}
    (made : Made size accesses machine.memory) : Answers size accesses machine where
  sized := made.sized
  refused := by
    intro access address width extent beyond
    rcases perform_extent machine extent with ⟨reply, after, outcome⟩
    rw [if_neg ((beyond_iff made.sized).mp beyond)] at outcome
    exact ⟨_, outcome, rfl, rfl⟩
  accepted := by
    intro access address width extent within
    rcases perform_extent machine extent with ⟨reply, after, outcome⟩
    have inside := (not_beyond_iff made.sized).mp within
    rw [if_pos inside] at outcome
    exact ⟨reply, after, outcome⟩
  read := by
    intro address width within
    have inside := (not_beyond_iff made.sized).mp within
    rw [perform_read, if_pos inside, made.valueAt_eq inside]

/-- Memory refines a map from addresses to bytes. However accesses follow one another,
whether they succeed or fail, the next one is refused exactly beyond memory, and what can
be read is what was put there last. -/
theorem memory_refines_map {size : Int} (positive : 0 < size) :
    ∃ memory, Memory.create size [] = .ok memory ∧
      ∀ (machine : Machine) (accesses : List Access), machine.memory = memory →
        Answers size accesses (performAll machine accesses) := by
  have created : Memory.create size [] = .ok (.zeros size.toNat) := by
    rw [Memory.create, if_neg (Int.not_le.mpr positive)]
    rfl
  refine ⟨_, created, ?_⟩
  intro machine accesses start
  have made : Made size [] machine.memory := by
    rw [start]
    exact made_zeros positive
  exact (made.performAll accesses).answers

/-- A block over a word, and a write that is refused: the word with one byte replaced. -/
theorem memory_refines_map_overlap :
    let accesses : List Access := [.write 0 4 0x01020304, .load [9] 1, .write 6 4 (-1)]
    let reached := performAll { memory := .zeros 8 } accesses
    (0 : Int) < 8 ∧
      (Monitor.perform (.read 0 4)).run reached = .ok (.number 0x01020904) reached := by
  intro accesses reached
  have positive : (0 : Int) < 8 := by decide
  rcases memory_refines_map positive with ⟨memory, created, answers⟩
  cases created
  have sum : ∑ index ∈ Finset.range 4, 256 ^ index * (lastPut 8 (0 + index) accesses).toNat =
      0x01020904 := by decide
  have found := (answers { memory := .zeros 8 } accesses rfl).read 0 4 (by decide)
  rw [sum] at found
  exact ⟨positive, found⟩

end Access

end Arm32
