import Arm32.Proofs.Memory.Accesses

namespace Arm32.Memory

/-! Memory with seeds. They are written one after another, so that where words overlap
the last one counts, and one that does not fit spoils them all. -/

/-- Every seed has a place for its word. -/
def Seeds.Fit (seeds : Seeds) (size : Int) : Prop :=
  ∀ seed ∈ seeds, 0 ≤ seed.1 ∧ seed.1 + 4 ≤ size

instance (seeds : Seeds) (size : Int) : Decidable (seeds.Fit size) :=
  inferInstanceAs (Decidable (∀ seed ∈ seeds, _ ∧ _))

/-- The byte of a seed at an index, if its word covers the index. A value is reduced to a
word first. -/
def seedByte? (index : Int) (seed : Int × Int) : Option UInt8 :=
  if index < seed.1 ∨ seed.1 + 4 ≤ index then none
  else some (UInt8.ofNat (seed.2 % 0x100000000 / 256 ^ (index - seed.1).toNat % 256).toNat)

/-- The byte that the last of the seeds to cover an index has there. -/
def Seeds.byteAt (seeds : Seeds) (index : Int) : UInt8 :=
  (seeds.filterMap (seedByte? index)).getLast?.getD 0

example : Seeds.byteAt [(0, 0x11223344), (2, -1), (9, 5)] 2 = 0xFF := by decide

/-- A seed as an access to memory. -/
def seedAccess (seed : Int × Int) : Access :=
  .write seed.1 4 seed.2

/-! ## Seeds one by one -/

theorem seed_cons (memory : Memory) (first : Int × Int) (rest : Seeds) :
    memory.seed (first :: rest) =
      if memory.Contains first.1 4 then
        (memory.setBytes first.1.toNat (LittleEndian.toBytes 4 first.2)).seed rest
      else .error (memory.outOfRange first.1 4) := by
  rw [seed, List.foldlM_cons, write, load, LittleEndian.length_toBytes]
  split <;> rfl

theorem contains_iff_of_made {size address : Int} {accesses : List Access} {memory : Memory}
    {width : Nat} (made : Access.Made size accesses memory) :
    memory.Contains address width ↔ 0 ≤ address ∧ address + width ≤ size := by
  rw [Contains, made.sized]

/-- A seed with a place is one more write. -/
theorem made_setSeed {size : Int} {accesses : List Access} {memory : Memory} {seed : Int × Int}
    (made : Access.Made size accesses memory) (inside : memory.Contains seed.1 4) :
    Access.Made size (accesses ++ [seedAccess seed])
      (memory.setBytes seed.1.toNat (LittleEndian.toBytes 4 seed.2)) := by
  apply Access.Made.write
  apply made.load
  rw [LittleEndian.length_toBytes]
  exact inside

/-- Seeds that fit are so many writes. -/
theorem seed_fitting {size : Int} {accesses : List Access} {memory : Memory} {seeds : Seeds}
    (made : Access.Made size accesses memory) (fit : seeds.Fit size) :
    ∃ after, memory.seed seeds = .ok after ∧
      Access.Made size (accesses ++ seeds.map seedAccess) after := by
  induction seeds generalizing memory accesses with
  | nil =>
      refine ⟨memory, rfl, ?_⟩
      rw [List.map_nil, List.append_nil]
      exact made
  | cons first rest induction =>
      have inside : memory.Contains first.1 4 :=
        (contains_iff_of_made made).mpr (fit first (.head _))
      rw [seed_cons, if_pos inside, List.map_cons, List.append_cons]
      exact induction (made_setSeed made inside) fun seed later => fit seed (.tail _ later)

/-- One seed that does not fit is enough. -/
theorem seed_unfitting {size : Int} {accesses : List Access} {memory : Memory} {seeds : Seeds}
    (made : Access.Made size accesses memory) (unfit : ¬ seeds.Fit size) :
    ∃ fault, memory.seed seeds = .error fault := by
  induction seeds generalizing memory accesses with
  | nil => exact absurd (fun seed member => nomatch member) unfit
  | cons first rest induction =>
      rw [seed_cons]
      split
      case isTrue inside =>
        apply induction (made_setSeed made inside)
        intro fit
        apply unfit
        intro seed member
        cases member with
        | head => exact (contains_iff_of_made made).mp inside
        | tail _ later => exact fit seed later
      case isFalse => exact ⟨_, rfl⟩

/-! ## New memory -/

/-- Where a seed fits, the access puts the bytes of its word. -/
theorem put?_seedAccess {size : Int} {seed : Int × Int} (index : Int)
    (fits : 0 ≤ seed.1 ∧ seed.1 + 4 ≤ size) :
    (seedAccess seed).put? size index = seedByte? index seed := by
  have within : ¬ Access.Beyond size seed.1 4 := by
    simp only [Access.Beyond]
    omega
  have word : (256 : Int) ^ 4 = 0x100000000 := by norm_num
  simp only [seedAccess, Access.put?, seedByte?, within, false_or, word]
  rfl

theorem lastPut_seedAccess {size : Int} {seeds : Seeds} (index : Int) (fit : seeds.Fit size) :
    Access.lastPut size index (seeds.map seedAccess) = seeds.byteAt index := by
  have same : seeds.filterMap (Access.put? size index ∘ seedAccess) =
      seeds.filterMap (seedByte? index) :=
    List.filterMap_congr fun seed member => put?_seedAccess index (fit seed member)
  rw [Access.lastPut, Seeds.byteAt, List.filterMap_map, same]

theorem create_eq {size : Int} (positive : 0 < size) (seeds : Seeds) :
    create size seeds = ((zeros size.toNat).seed seeds).mapError .fault := by
  rw [create, if_neg (Int.not_le.mpr positive)]

/-- New memory has the size that was asked for, and holds its seeds. -/
theorem create_fitting {size : Int} {seeds : Seeds} (positive : 0 < size) (fit : seeds.Fit size) :
    ∃ memory, create size seeds = .ok memory ∧ memory.size = size ∧
      ∀ index : Nat, index < memory.size → memory.byteAt index = seeds.byteAt index := by
  rcases seed_fitting (Access.made_zeros positive) fit with ⟨memory, seeded, made⟩
  refine ⟨memory, ?_, made.sized, ?_⟩
  · rw [create_eq positive, seeded]
    rfl
  · intro index inside
    rw [made.bytes index inside, List.nil_append, lastPut_seedAccess _ fit]

theorem create_unfitting {size : Int} {seeds : Seeds} (positive : 0 < size)
    (unfit : ¬ seeds.Fit size) : ∃ fault, create size seeds = .error (.fault fault) := by
  rcases seed_unfitting (Access.made_zeros positive) unfit with ⟨fault, refused⟩
  refine ⟨fault, ?_⟩
  rw [create_eq positive, refused]
  rfl

end Arm32.Memory
