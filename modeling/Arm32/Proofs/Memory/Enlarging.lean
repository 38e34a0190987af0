import Arm32.Proofs.Memory.Refusals

namespace Arm32.Memory

/-! Memories of two sizes. As long as the larger memory begins with the smaller one,
every access that the smaller one allows has the same result on the larger one, and
leaves them so. -/

/-- A memory, and a larger one that begins with it. -/
structure Enlarged (size largerSize : Nat) (memory larger : Memory) : Prop where
  ordered : size ≤ largerSize
  size_eq : memory.size = size
  largerSize_eq : larger.size = largerSize
  bytes : ∀ address, address < size → larger.byteAt address = memory.byteAt address

theorem enlarged_zeros {size largerSize : Nat} (ordered : size ≤ largerSize) :
    Enlarged size largerSize (zeros size) (zeros largerSize) where
  ordered := ordered
  size_eq := size_zeros size
  largerSize_eq := size_zeros largerSize
  bytes := fun address _ => by rw [byteAt_zeros, byteAt_zeros]

namespace Enlarged

variable {size largerSize : Nat} {memory larger : Memory}

/-! ## Reading -/

theorem contains (enlarged : Enlarged size largerSize memory larger) {address : Int}
    {width : Nat} (inside : memory.Contains address width) : larger.Contains address width := by
  have ordered := enlarged.ordered
  have sizes := enlarged.size_eq
  have largerSizes := enlarged.largerSize_eq
  simp only [Contains] at inside ⊢
  omega

theorem valueAt (enlarged : Enlarged size largerSize memory larger) {address width : Nat}
    (inside : address + width ≤ size) :
    larger.valueAt address width = memory.valueAt address width := by
  induction width generalizing address with
  | zero => rfl
  | succ width induction =>
      rw [Memory.valueAt, Memory.valueAt, enlarged.bytes address (by omega),
        induction (by omega)]

theorem valueAt_of_contains (enlarged : Enlarged size largerSize memory larger) {address : Int}
    {width : Nat} (inside : memory.Contains address width) :
    larger.valueAt address.toNat width = memory.valueAt address.toNat width := by
  have sizes := enlarged.size_eq
  simp only [Contains] at inside
  exact enlarged.valueAt (by omega)

theorem slice (enlarged : Enlarged size largerSize memory larger) {address count : Nat}
    (inside : address + count ≤ size) :
    larger.slice address count = memory.slice address count := by
  apply List.map_congr_left
  intro index member
  have bounds := List.mem_range'_1.mp member
  exact enlarged.bytes index (by omega)

theorem read (enlarged : Enlarged size largerSize memory larger) {address : Int}
    {width value : Nat} (found : memory.read address width = .ok value) :
    larger.read address width = .ok value := by
  unfold Memory.read at found
  split at found
  case isTrue inside =>
    rw [Memory.read, if_pos (enlarged.contains inside), enlarged.valueAt_of_contains inside]
    exact found
  case isFalse => cases found

/-- A string that ends in the smaller memory ends at the same place in the larger one. -/
theorem terminator? (enlarged : Enlarged size largerSize memory larger) {address stop : Nat}
    (found : memory.terminator? address = some stop) :
    larger.terminator? address = some stop ∧ stop < size := by
  have ordered := enlarged.ordered
  have sizes := enlarged.size_eq
  have largerSizes := enlarged.largerSize_eq
  induction address using Memory.terminator?.induct memory with
  | case1 address inside zero =>
      have same := enlarged.bytes address (by omega)
      rw [Memory.terminator?, if_pos inside, if_pos zero, Option.some.injEq] at found
      rw [Memory.terminator?, if_pos (by omega), same, if_pos zero, found]
      exact ⟨rfl, by omega⟩
  | case2 address inside other induction =>
      have same := enlarged.bytes address (by omega)
      rw [Memory.terminator?, if_pos inside, if_neg other] at found
      rw [Memory.terminator?, if_pos (by omega), same, if_neg other]
      exact induction found
  | case3 address outside =>
      rw [Memory.terminator?, if_neg outside] at found
      cases found

theorem readString (enlarged : Enlarged size largerSize memory larger) {address : Int}
    {bytes : List UInt8} (found : memory.readString address = .ok bytes) :
    larger.readString address = .ok bytes := by
  unfold Memory.readString at found
  split at found
  case isTrue inside =>
    split at found
    case h_1 stop stops =>
      rcases enlarged.terminator? stops with ⟨largerStops, below⟩
      have sizes := enlarged.size_eq
      have room : address.toNat + (stop - address.toNat) ≤ size := by
        simp only [Contains] at inside
        omega
      rw [Memory.readString, if_pos (enlarged.contains inside), largerStops]
      dsimp only
      rw [enlarged.slice room]
      exact found
    case h_2 => cases found
  case isFalse => cases found

/-- The watched words are the same if every watched address lies in both memories or
in neither. -/
theorem watch (enlarged : Enlarged size largerSize memory larger) {addresses : List Int}
    (agree : ∀ address ∈ addresses, larger.Contains address 4 → memory.Contains address 4) :
    larger.watch addresses = memory.watch addresses := by
  have kept : (addresses.eraseDups.filter fun address => larger.Contains address 4) =
      addresses.eraseDups.filter fun address => memory.Contains address 4 := by
    apply List.filter_congr
    intro address member
    have listed : address ∈ addresses := List.mem_eraseDups.mp member
    exact decide_eq_decide.mpr ⟨agree address listed, enlarged.contains⟩
  -- The same addresses are kept; each of their words lies in the smaller memory.
  rw [Memory.watch, Memory.watch, kept]
  apply List.map_congr_left
  intro address member
  have inside : memory.Contains address 4 := of_decide_eq_true (List.mem_filter.mp member).2
  rw [enlarged.valueAt_of_contains inside]

/-! ## Writing -/

theorem setByte (enlarged : Enlarged size largerSize memory larger) (address : Nat)
    (value : UInt8) :
    Enlarged size largerSize (memory.setByte address value) (larger.setByte address value) where
  ordered := enlarged.ordered
  size_eq := (memory.size_setByte address value).trans enlarged.size_eq
  largerSize_eq := (larger.size_setByte address value).trans enlarged.largerSize_eq
  bytes := by
    intro other inside
    have ordered := enlarged.ordered
    have sizes := enlarged.size_eq
    have largerSizes := enlarged.largerSize_eq
    by_cases same : other = address
    · subst same
      rw [byteAt_setByte_same _ _ _ (by omega), byteAt_setByte_same _ _ _ (by omega)]
    · rw [byteAt_setByte_other _ _ _ _ same, byteAt_setByte_other _ _ _ _ same,
        enlarged.bytes other inside]

theorem setBytes (enlarged : Enlarged size largerSize memory larger) (address : Nat)
    (block : List UInt8) :
    Enlarged size largerSize (memory.setBytes address block) (larger.setBytes address block) := by
  induction block generalizing memory larger address with
  | nil => exact enlarged
  | cons byte rest induction => exact induction (enlarged.setByte address byte) (address + 1)

theorem load (enlarged : Enlarged size largerSize memory larger) {block : List UInt8}
    {address : Int} {loaded : Memory} (stored : memory.load block address = .ok loaded) :
    ∃ largerLoaded, larger.load block address = .ok largerLoaded ∧
      Enlarged size largerSize loaded largerLoaded := by
  unfold Memory.load at stored
  split at stored
  case isTrue inside =>
    cases stored
    refine ⟨_, ?_, enlarged.setBytes address.toNat block⟩
    rw [Memory.load, if_pos (enlarged.contains inside)]
  case isFalse => cases stored

theorem seed (enlarged : Enlarged size largerSize memory larger) {seeds : Seeds}
    {seeded : Memory} (stored : memory.seed seeds = .ok seeded) :
    ∃ largerSeeded, larger.seed seeds = .ok largerSeeded ∧
      Enlarged size largerSize seeded largerSeeded := by
  induction seeds generalizing memory larger with
  | nil =>
      cases stored
      exact ⟨larger, rfl, enlarged⟩
  | cons pair rest induction =>
      rw [Memory.seed, List.foldlM_cons] at stored
      cases written : memory.write pair.1 4 pair.2 with
      | error fault =>
          rw [written] at stored
          cases stored
      | ok next =>
          rw [written] at stored
          rcases enlarged.load written with ⟨largerNext, largerWritten, nextEnlarged⟩
          rcases induction nextEnlarged stored with ⟨largerSeeded, largerStored, seededEnlarged⟩
          refine ⟨largerSeeded, ?_, seededEnlarged⟩
          rw [Memory.seed, List.foldlM_cons, Memory.write, largerWritten]
          exact largerStored

end Enlarged

end Arm32.Memory
