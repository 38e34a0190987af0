import Arm32.Proofs.Memory.Bytes
import Arm32.Proofs.Memory.Strings

namespace Arm32.Bare

/-! Memory in bare numbers. Its bytes are a list of integers, as many as happen to be in it,
and only the code that reads and writes them keeps the list at its length and the integers
within a byte. What this code does is what memory made of bytes does. -/

/-- What can go wrong in bare numbers: all that goes wrong on a machine, and what happens to
numbers that get where there is no room for them. -/
inductive Failure where
  | machine (failure : Arm32.Failure)
  | numberTooLarge (value : Int) (width : Nat)
  | missingRegister (index : Nat)
deriving DecidableEq, Repr

def Failure.ofFault (fault : Fault) : Failure :=
  .machine (.fault fault)

structure Memory where
  size : Int
  bytes : List Int
deriving DecidableEq, Repr

/-! ## Encodings -/

/-- The bytes of a block as numbers. -/
def numbers (block : List UInt8) : List Int :=
  block.map fun byte => (byte.toNat : Int)

def digits : (width : Nat) → (value : Int) → List Int
  | 0, _ => []
  | width + 1, value => value % 256 :: digits width (value / 256)

/-- The bytes that encode a number, which has to fit into them. -/
def toBytes (width : Nat) (value : Int) : Except Failure (List Int) :=
  if 0 ≤ value ∧ value < (1 <<< (width * 8) : Nat) then .ok (digits width value)
  else .error (.numberTooLarge value width)

def ofBytes : List Int → Int
  | [] => 0
  | byte :: rest => byte + 256 * ofBytes rest

/-! ## Accesses -/

namespace Memory

/-- An access has to lie between the first and the last address. -/
def checkBounds (memory : Memory) (address : Int) (width : Nat) : Except Failure Unit :=
  if address < 0 ∨ memory.size < address + width then
    .error (.machine (.fault (.addressOutOfRange address width memory.size.toNat)))
  else .ok ()

/-- The bytes from an address upwards, without those that are missing at the end. -/
def slice (memory : Memory) (address : Int) (width : Nat) : List Int :=
  (memory.bytes.drop address.toNat).take width

/-- A block in place of as many bytes from an address upwards. -/
def splice (memory : Memory) (address : Int) (width : Nat) (block : List Int) : Memory :=
  { memory with
    bytes := memory.bytes.take address.toNat ++ block ++
      memory.bytes.drop (address.toNat + width) }

def read (memory : Memory) (address : Int) (width : Nat) : Except Failure Int := do
  memory.checkBounds address width
  return ofBytes (memory.slice address width)

def load (memory : Memory) (block : List Int) (address : Int) : Except Failure Memory := do
  memory.checkBounds address block.length
  return memory.splice address block.length block

/-- Writes the low bits of a value for which there is room. -/
def write (memory : Memory) (address : Int) (width : Nat) (value : Int) :
    Except Failure Memory := do
  memory.checkBounds address width
  let block ← toBytes width (value % (1 <<< (width * 8) : Nat))
  return memory.splice address width block

def readString (memory : Memory) (address : Int) : Except Failure (List Int) := do
  memory.checkBounds address 1
  let rest := memory.bytes.drop address.toNat
  match rest.findIdx? (· == 0) with
  | some count => .ok (rest.take count)
  | none => .error (.machine (.fault (.unterminatedString address memory.size.toNat)))

def zeros (size : Int) : Memory :=
  ⟨size, List.replicate size.toNat 0⟩

def create (size : Int) (seeds : Memory.Seeds) : Except Failure Memory :=
  if size ≤ 0 then .error (.machine (.misuse (.nonpositiveMemorySize size)))
  else seeds.foldlM (fun memory pair => memory.write pair.1 4 pair.2) (zeros size)

end Memory

end Arm32.Bare

namespace Arm32

/-! ## Bytes as numbers -/

namespace Bare

theorem ofBytes_numbers (block : List UInt8) :
    ofBytes (numbers block) = (LittleEndian.ofBytes block : Nat) := by
  induction block with
  | nil => rfl
  | cons byte rest induction =>
      simp only [numbers] at induction
      simp only [numbers, List.map_cons, ofBytes, LittleEndian.ofBytes, induction, Int.natCast_add,
        Int.natCast_mul, Int.cast_ofNat_Int]

theorem emod_mul_ediv (value : Int) {first second : Int} (positive : 0 < first) :
    value % (first * second) / first = value / first % second := by
  have multiple : value - first * second * (value / (first * second)) =
      value + first * -(second * (value / (first * second))) := by
    rw [Int.mul_neg, Int.mul_assoc, Int.sub_eq_add_neg]
  rw [Int.emod_def, multiple, Int.add_mul_ediv_left _ _ (by omega), Int.emod_def,
    Int.ediv_ediv_of_nonneg (by omega), Int.sub_eq_add_neg]

/-- The digits of the low bits of a value are the bytes that encode it. -/
theorem digits_emod (width : Nat) (value : Int) :
    digits width (value % (1 <<< (width * 8) : Nat)) =
      numbers (LittleEndian.toBytes width value) := by
  induction width generalizing value with
  | zero => rfl
  | succ width induction =>
      have room : ((1 <<< ((width + 1) * 8) : Nat) : Int) =
          (256 : Int) * (1 <<< (width * 8) : Nat) := by
        rw [Nat.one_shiftLeft, Nat.one_shiftLeft, Nat.add_mul, Nat.pow_add, Nat.mul_comm]
        rfl
      have byte : ((UInt8.ofNat (value % 256).toNat).toNat : Int) = value % 256 := by
        rw [UInt8.toNat_ofNat']
        omega
      rw [room, digits, Int.emod_emod_of_dvd value (Int.dvd_mul_right _ _),
        emod_mul_ediv value (by decide), induction, LittleEndian.toBytes, numbers, numbers,
        List.map_cons, byte]

/-- The low bits of a value have room in their bytes. -/
theorem toBytes_emod (width : Nat) (value : Int) :
    toBytes width (value % (1 <<< (width * 8) : Nat)) =
      .ok (numbers (LittleEndian.toBytes width value)) := by
  have positive := one_shiftLeft_pos (width * 8)
  have lower : 0 ≤ value % (1 <<< (width * 8) : Nat) := Int.emod_nonneg _ (by omega)
  have upper := Int.emod_lt_of_pos value (Int.natCast_pos.mpr positive)
  rw [toBytes, if_pos ⟨lower, upper⟩, digits_emod]

/-- A value is cut down to its low bits before it is taken apart. -/
theorem Memory.write_eq_load (memory : Memory) (address : Int) (width : Nat) (value : Int) :
    memory.write address width value =
      memory.load (numbers (LittleEndian.toBytes width value)) address := by
  have length : (numbers (LittleEndian.toBytes width value)).length = width := by
    rw [numbers, List.length_map, LittleEndian.length_toBytes]
  rw [write, load, toBytes_emod, length]
  rfl

end Bare

/-! ## Memory made of bytes -/

namespace Memory

/-- The memory in bare numbers. -/
def toBare (memory : Memory) : Bare.Memory :=
  ⟨memory.size, Bare.numbers (memory.slice 0 memory.size)⟩

theorem length_slice (memory : Memory) (address count : Nat) :
    (memory.slice address count).length = count := by
  rw [slice, List.length_map, List.length_range']

theorem slice_append (memory : Memory) (address count more : Nat) :
    memory.slice address count ++ memory.slice (address + count) more =
      memory.slice address (count + more) := by
  rw [slice, slice, slice, ← List.map_append, List.range'_append_1]

theorem take_slice (memory : Memory) (address : Nat) {few many : Nat} (fewer : few ≤ many) :
    (memory.slice address many).take few = memory.slice address few := by
  rw [← Nat.add_sub_cancel' fewer, ← slice_append, List.take_left' (length_slice _ _ _)]

theorem drop_slice (memory : Memory) (address : Nat) {few many : Nat} (fewer : few ≤ many) :
    (memory.slice address many).drop few = memory.slice (address + few) (many - few) := by
  rw [← Nat.add_sub_cancel' fewer, ← slice_append, List.drop_left' (length_slice _ _ _),
    Nat.add_sub_cancel_left]

theorem slice_congr {first second : Memory} {address count : Nat}
    (same : ∀ index, address ≤ index → index < address + count →
      first.byteAt index = second.byteAt index) :
    first.slice address count = second.slice address count :=
  List.map_congr_left fun index covered =>
    same index (List.mem_range'_1.mp covered).1 (List.mem_range'_1.mp covered).2

theorem slice_setBytes (memory : Memory) {address : Nat} {block : List UInt8}
    (inside : address + block.length ≤ memory.size) :
    (memory.setBytes address block).slice address block.length = block := by
  apply List.ext_getElem (length_slice _ _ _)
  intro index _ within
  simp only [slice, List.getElem_map, List.getElem_range', Nat.one_mul]
  exact memory.byteAt_setBytes_inside (List.getElem?_eq_getElem within) inside

/-- Memory before, in and behind a part of it. -/
theorem slice_parts (memory : Memory) {address count : Nat}
    (inside : address + count ≤ memory.size) :
    memory.slice 0 memory.size = memory.slice 0 address ++ memory.slice address count ++
      memory.slice (address + count) (memory.size - (address + count)) := by
  have start := memory.slice_append 0 address count
  have whole := memory.slice_append 0 (address + count) (memory.size - (address + count))
  rw [Nat.zero_add] at start whole
  rw [start, whole, Nat.add_sub_cancel' inside]

variable {memory : Memory} {address : Int}

theorem checkBounds_toBare (memory : Memory) (address : Int) (width : Nat) :
    memory.toBare.checkBounds address width =
      if memory.Contains address width then .ok ()
      else .error (.machine (.fault (memory.outOfRange address width))) := by
  rw [Bare.Memory.checkBounds]
  by_cases inside : memory.Contains address width
  · have within : ¬ (address < 0 ∨ memory.toBare.size < address + width) := by
      have lower := inside.1
      have upper := inside.2
      simp only [toBare]
      omega
    rw [if_pos inside, if_neg within]
  · have outside : address < 0 ∨ memory.toBare.size < address + width := by
      simp only [Contains] at inside
      simp only [toBare]
      omega
    rw [if_neg inside, if_pos outside]
    rfl

theorem drop_toBare {address : Nat} (within : address ≤ memory.size) :
    memory.toBare.bytes.drop address =
      Bare.numbers (memory.slice address (memory.size - address)) := by
  rw [toBare, Bare.numbers, ← List.map_drop, memory.drop_slice 0 within, Nat.zero_add]
  rfl

theorem take_toBare {address : Nat} (within : address ≤ memory.size) :
    memory.toBare.bytes.take address = Bare.numbers (memory.slice 0 address) := by
  rw [toBare, Bare.numbers, ← List.map_take, memory.take_slice 0 within]
  rfl

/-- The addresses of an access that is checked. -/
theorem Contains.toNat_add_le {width : Nat} (inside : memory.Contains address width) :
    address.toNat + width ≤ memory.size := by
  have lower := inside.1
  have upper := inside.2
  omega

theorem slice_toBare {width : Nat} (inside : memory.Contains address width) :
    memory.toBare.slice address width = Bare.numbers (memory.slice address.toNat width) := by
  have within := inside.toNat_add_le
  rw [Bare.Memory.slice, drop_toBare (by omega), Bare.numbers, ← List.map_take,
    memory.take_slice _ (by omega)]
  rfl

theorem splice_toBare {block : List UInt8} (inside : memory.Contains address block.length) :
    memory.toBare.splice address block.length (Bare.numbers block) =
      (memory.setBytes address.toNat block).toBare := by
  have within := inside.toNat_add_le
  have before : (memory.setBytes address.toNat block).slice 0 address.toNat =
      memory.slice 0 address.toNat :=
    slice_congr fun index _ below => memory.byteAt_setBytes_outside (.inl (by omega))
  have behind (count : Nat) :
      (memory.setBytes address.toNat block).slice (address.toNat + block.length) count =
        memory.slice (address.toNat + block.length) count :=
    slice_congr fun index above _ => memory.byteAt_setBytes_outside (.inr above)
  have written := slice_parts (memory.setBytes address.toNat block)
    (by rwa [size_setBytes] : address.toNat + block.length ≤ _)
  rw [before, behind, memory.slice_setBytes within, size_setBytes] at written
  rw [Bare.Memory.splice, take_toBare (by omega), drop_toBare within, toBare, toBare,
    size_setBytes, written]
  simp only [Bare.numbers, List.map_append]

/-! ## Accesses -/

theorem read_toBare (memory : Memory) (address : Int) (width : Nat) :
    memory.toBare.read address width =
      ((memory.read address width).map Int.ofNat).mapError .ofFault := by
  rw [Bare.Memory.read, checkBounds_toBare, read]
  split
  case isTrue inside =>
    have value : Bare.ofBytes (memory.toBare.slice address width) =
        Int.ofNat (memory.valueAt address.toNat width) := by
      rw [slice_toBare inside, Bare.ofBytes_numbers, valueAt_eq]
      rfl
    exact congrArg Except.ok value
  case isFalse => rfl

theorem load_toBare (memory : Memory) (block : List UInt8) (address : Int) :
    memory.toBare.load (Bare.numbers block) address =
      ((memory.load block address).map toBare).mapError .ofFault := by
  have length : (Bare.numbers block).length = block.length := List.length_map _
  rw [Bare.Memory.load, length, checkBounds_toBare, load]
  split
  case isTrue inside => exact congrArg Except.ok (splice_toBare inside)
  case isFalse => rfl

theorem write_toBare (memory : Memory) (address : Int) (width : Nat) (value : Int) :
    memory.toBare.write address width value =
      ((memory.write address width value).map toBare).mapError .ofFault := by
  rw [Bare.Memory.write_eq_load, load_toBare, write]

/-- A string ends where the first zero of the bytes from its address upwards is. -/
theorem terminator?_eq (memory : Memory) (address : Nat) :
    memory.terminator? address =
      ((memory.slice address (memory.size - address)).findIdx? (· == 0)).map (address + ·) := by
  have first {address : Nat} (inside : address < memory.size) :
      memory.slice address (memory.size - address) =
        memory.byteAt address :: memory.slice (address + 1) (memory.size - (address + 1)) := by
    rw [show memory.size - address = memory.size - (address + 1) + 1 by omega]
    rfl
  induction address using terminator?.induct memory with
  | case1 address inside zero =>
      rw [terminator?, if_pos inside, if_pos zero, first inside, List.findIdx?_cons, zero]
      rfl
  | case2 address inside other induction =>
      rw [terminator?, if_pos inside, if_neg other, induction, first inside, List.findIdx?_cons,
        beq_false_of_ne other, if_neg Bool.false_ne_true, Option.map_map]
      congr 1
      funext count
      exact Nat.add_right_comm address 1 count
  | case3 address outside =>
      rw [terminator?, if_neg outside, Nat.sub_eq_zero_of_le (by omega)]
      rfl

theorem findIdx?_numbers (block : List UInt8) :
    (Bare.numbers block).findIdx? (· == 0) = block.findIdx? (· == 0) := by
  have zero (byte : UInt8) : (byte.toNat : Int) = 0 ↔ byte = 0 := by
    rw [← UInt8.toNat_inj]
    exact Int.natCast_eq_zero
  rw [Bare.numbers, List.findIdx?_map]
  congr 1
  funext byte
  rw [Bool.eq_iff_iff]
  simp only [Function.comp, beq_iff_eq, zero]

theorem readString_toBare (memory : Memory) (address : Int) :
    memory.toBare.readString address =
      ((memory.readString address).map Bare.numbers).mapError .ofFault := by
  rw [Bare.Memory.readString, checkBounds_toBare, readString]
  split
  case isTrue inside =>
    have within := inside.toNat_add_le
    simp only [bind, Except.bind, drop_toBare (Nat.le_of_succ_le within), findIdx?_numbers,
      terminator?_eq]
    cases found : (memory.slice address.toNat (memory.size - address.toNat)).findIdx? (· == 0) with
    | none => rfl
    | some count =>
        rcases List.findIdx?_eq_some_iff_getElem.mp found with ⟨earlier, -⟩
        rw [length_slice] at earlier
        have taken : (Bare.numbers (memory.slice address.toNat
            (memory.size - address.toNat))).take count =
            Bare.numbers (memory.slice address.toNat (address.toNat + count - address.toNat)) := by
          rw [Bare.numbers, ← List.map_take, memory.take_slice _ (Nat.le_of_lt earlier),
            Nat.add_sub_cancel_left]
          rfl
        exact congrArg Except.ok taken
  case isFalse => rfl

theorem seed_toBare (memory : Memory) (seeds : Seeds) :
    seeds.foldlM (fun (memory : Bare.Memory) pair => memory.write pair.1 4 pair.2)
        memory.toBare = ((memory.seed seeds).map toBare).mapError .ofFault := by
  rw [seed]
  induction seeds generalizing memory with
  | nil => rfl
  | cons pair seeds induction =>
      rw [List.foldlM_cons, List.foldlM_cons, write_toBare]
      cases memory.write pair.1 4 pair.2 with
      | error fault => rfl
      | ok next => exact induction next

theorem toBare_zeros (size : Nat) : (zeros size).toBare = Bare.Memory.zeros size := by
  have zero : ∀ number ∈ Bare.numbers ((zeros size).slice 0 size), number = 0 := by
    intro number among
    rcases List.mem_map.mp among with ⟨byte, isByte, rfl⟩
    rcases List.mem_map.mp isByte with ⟨address, -, rfl⟩
    rw [byteAt_zeros]
    rfl
  have length : (Bare.numbers ((zeros size).slice 0 size)).length = size := by
    rw [Bare.numbers, List.length_map, length_slice]
  rw [toBare, Bare.Memory.zeros, size_zeros, Int.toNat_natCast,
    List.eq_replicate_of_mem zero, length]

theorem create_toBare (size : Int) (seeds : Seeds) :
    Bare.Memory.create size seeds = ((create size seeds).map toBare).mapError .machine := by
  rw [Bare.Memory.create, create]
  split
  case isTrue => rfl
  case isFalse positive =>
    have same : ((size.toNat : Nat) : Int) = size := by omega
    have begun := seed_toBare (zeros size.toNat) seeds
    rw [toBare_zeros, same] at begun
    rw [begun]
    cases (zeros size.toNat).seed seeds <;> rfl

end Memory

end Arm32
