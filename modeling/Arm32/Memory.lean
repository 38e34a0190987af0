import Arm32.Fault
import Arm32.LittleEndian

namespace Arm32

/-! Byte memory of a fixed size. Addresses are integers, so that an access below
zero or past the end is a fault and never a wrapped access; the operations on
natural addresses are total and ignore what lies outside. -/

structure Memory where
  bytes : ByteArray

namespace Memory

def defaultSize : Int := 0x10000

def size (memory : Memory) : Nat :=
  memory.bytes.size

/-- Memory of a given size that holds zeros. -/
def zeros (size : Nat) : Memory :=
  ⟨⟨Array.replicate size 0⟩⟩

def byteAt (memory : Memory) (address : Nat) : UInt8 :=
  if inside : address < memory.size then memory.bytes.get address inside else 0

def setByte (memory : Memory) (address : Nat) (value : UInt8) : Memory :=
  if inside : address < memory.size then ⟨memory.bytes.set address value inside⟩
  else memory

theorem byteAt_of_lt (memory : Memory) {address : Nat} (inside : address < memory.size) :
    memory.byteAt address = memory.bytes.get address inside :=
  dif_pos inside

theorem byteAt_of_not_lt (memory : Memory) {address : Nat} (outside : ¬ address < memory.size) :
    memory.byteAt address = 0 :=
  dif_neg outside

theorem setByte_of_lt (memory : Memory) {address : Nat} (value : UInt8)
    (inside : address < memory.size) :
    memory.setByte address value = ⟨memory.bytes.set address value inside⟩ :=
  dif_pos inside

theorem setByte_of_not_lt (memory : Memory) {address : Nat} (value : UInt8)
    (outside : ¬ address < memory.size) :
    memory.setByte address value = memory :=
  dif_neg outside

@[simp] theorem size_zeros (size : Nat) : (zeros size).size = size :=
  Array.size_replicate

@[simp] theorem size_setByte (memory : Memory) (address : Nat) (value : UInt8) :
    (memory.setByte address value).size = memory.size := by
  unfold setByte
  split
  · exact Array.size_set _
  · rfl

theorem byteAt_zeros (size address : Nat) : (zeros size).byteAt address = 0 := by
  by_cases inside : address < (zeros size).size
  · rw [byteAt_of_lt _ inside]
    exact Array.getElem_replicate _
  · exact byteAt_of_not_lt _ inside

theorem byteAt_setByte_same (memory : Memory) (address : Nat) (value : UInt8)
    (inside : address < memory.size) :
    (memory.setByte address value).byteAt address = value := by
  rw [setByte_of_lt memory value inside, byteAt_of_lt _ (by rwa [← setByte_of_lt, size_setByte])]
  exact Array.getElem_set_self _

theorem byteAt_setByte_other (memory : Memory) (address other : Nat) (value : UInt8)
    (different : other ≠ address) :
    (memory.setByte address value).byteAt other = memory.byteAt other := by
  by_cases inside : other < memory.size
  · by_cases written : address < memory.size
    · rw [setByte_of_lt memory value written, byteAt_of_lt memory inside,
        byteAt_of_lt _ (by rwa [← setByte_of_lt, size_setByte])]
      exact Array.getElem_set_ne _ _ (Ne.symm different)
    · rw [setByte_of_not_lt memory value written]
  · rw [byteAt_of_not_lt memory inside, byteAt_of_not_lt _ (by rwa [size_setByte])]

/-! ## Runs of bytes -/

/-- The bytes from an address upwards. -/
def slice (memory : Memory) (address count : Nat) : List UInt8 :=
  (List.range' address count).map memory.byteAt

/-- Memory with a block of bytes copied to an address. -/
def setBytes (memory : Memory) (address : Nat) : List UInt8 → Memory
  | [] => memory
  | byte :: rest => (memory.setByte address byte).setBytes (address + 1) rest

/-- The number that the `width` bytes from an address upwards encode. -/
def valueAt (memory : Memory) (address : Nat) : (width : Nat) → Nat
  | 0 => 0
  | width + 1 => (memory.byteAt address).toNat + 256 * memory.valueAt (address + 1) width

@[simp] theorem size_setBytes (memory : Memory) (address : Nat) (block : List UInt8) :
    (memory.setBytes address block).size = memory.size := by
  induction block generalizing memory address with
  | nil => rfl
  | cons byte rest induction => simp [setBytes, induction]

theorem valueAt_eq (memory : Memory) (address width : Nat) :
    memory.valueAt address width = LittleEndian.ofBytes (memory.slice address width) := by
  induction width generalizing address with
  | zero => rfl
  | succ width induction =>
      simp only [slice] at induction
      simp [valueAt, slice, List.range'_succ, LittleEndian.ofBytes, induction]

/-! ## Checked accesses -/

/-- Every byte of an access lies in memory. -/
def Contains (memory : Memory) (address : Int) (width : Nat) : Prop :=
  0 ≤ address ∧ address + width ≤ memory.size

instance (memory : Memory) (address : Int) (width : Nat) :
    Decidable (memory.Contains address width) :=
  inferInstanceAs (Decidable (_ ∧ _))

def outOfRange (memory : Memory) (address : Int) (width : Nat) : Fault :=
  .addressOutOfRange address width memory.size

def read (memory : Memory) (address : Int) (width : Nat) : Except Fault Nat :=
  if memory.Contains address width then .ok (memory.valueAt address.toNat width)
  else .error (memory.outOfRange address width)

/-- Copies a block of bytes to an address. -/
def load (memory : Memory) (block : List UInt8) (address : Int) : Except Fault Memory :=
  if memory.Contains address block.length then .ok (memory.setBytes address.toNat block)
  else .error (memory.outOfRange address block.length)

/-- Writes the low `width` bytes of a value. -/
def write (memory : Memory) (address : Int) (width : Nat) (value : Int) :
    Except Fault Memory :=
  memory.load (LittleEndian.toBytes width value) address

/-- The first address at or after `address` that holds zero. -/
def terminator? (memory : Memory) (address : Nat) : Option Nat :=
  if address < memory.size then
    if memory.byteAt address = 0 then some address else memory.terminator? (address + 1)
  else none
termination_by memory.size - address

def readString (memory : Memory) (address : Int) : Except Fault (List UInt8) :=
  if memory.Contains address 1 then
    match memory.terminator? address.toNat with
    | some stop => .ok (memory.slice address.toNat (stop - address.toNat))
    | none => .error (.unterminatedString address memory.size)
  else .error (memory.outOfRange address 1)

/-- The words at the addresses that lie in memory, each address once. -/
def watch (memory : Memory) (addresses : List Int) : List (Int × Word) :=
  (addresses.eraseDups.filter fun address => memory.Contains address 4).map fun address =>
    (address, Word.ofInt (memory.valueAt address.toNat 4))

/-! ## Seeding -/

/-- Words to be written before a program starts, one for each address. -/
abbrev Seeds := List (Int × Int)

/-- Sets the word for an address; a new address goes last. -/
def Seeds.insert (seeds : Seeds) (address value : Int) : Seeds :=
  if seeds.any (·.1 == address) then
    seeds.map fun seed => if seed.1 == address then (address, value) else seed
  else seeds ++ [(address, value)]

/-- Collapses repeated addresses: the first one's place, the last one's word. -/
def Seeds.ofList (pairs : List (Int × Int)) : Seeds :=
  pairs.foldl (fun seeds pair => Seeds.insert seeds pair.1 pair.2) []

def seed (memory : Memory) (seeds : Seeds) : Except Fault Memory :=
  seeds.foldlM (fun memory pair => memory.write pair.1 4 pair.2) memory

/-- New memory. A size that is not positive is refused before anything else. -/
def create (size : Int) (seeds : Seeds) : Except Failure Memory :=
  if size ≤ 0 then .error (.misuse (.nonpositiveMemorySize size))
  else ((zeros size.toNat).seed seeds).mapError .fault

end Memory

end Arm32
