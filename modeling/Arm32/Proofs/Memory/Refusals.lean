import Arm32.Memory

namespace Arm32.Memory

/-! What memory refuses. An access outside of it, a string without an end and seeds that
do not fit are faults of one kind. -/

/-- The address that a word holds is not below zero. -/
theorem contains_toInt_iff {memory : Memory} {address : Word} {width : Nat} :
    memory.Contains address.toInt width ↔ address.toNat + width ≤ memory.size := by
  simp only [Contains, Word.toInt]
  omega

/-- A string has no end if no byte from its first one on is zero. -/
theorem terminator?_eq_none_iff {memory : Memory} {address : Nat} :
    memory.terminator? address = none ↔
      ∀ index, address ≤ index → index < memory.size → memory.byteAt index ≠ 0 := by
  induction address using terminator?.induct memory with
  | case1 address inside zero =>
      rw [terminator?, if_pos inside, if_pos zero]
      constructor
      · intro impossible
        cases impossible
      · intro endless
        exact absurd zero (endless address (Nat.le_refl _) inside)
  | case2 address inside other induction =>
      rw [terminator?, if_pos inside, if_neg other, induction]
      constructor
      · intro endless index above below
        rcases Nat.eq_or_lt_of_le above with rfl | later
        · exact other
        · exact endless index later below
      · intro endless index above below
        exact endless index (by omega) below
  | case3 address outside =>
      rw [terminator?, if_neg outside]
      constructor
      · intro _ index above below
        omega
      · intro _
        rfl

/-- A string is refused outside of memory, and if it runs out of it. -/
theorem readString_eq_error_iff {memory : Memory} {address : Word} {fault : Fault} :
    memory.readString address.toInt = .error fault ↔
      (memory.size ≤ address.toNat ∧ fault = memory.outOfRange address.toInt 1) ∨
        address.toNat < memory.size ∧
          (∀ index, address.toNat ≤ index → index < memory.size → memory.byteAt index ≠ 0) ∧
          fault = .unterminatedString address.toInt memory.size := by
  have start : address.toInt.toNat = address.toNat := rfl
  rw [readString, start, ← terminator?_eq_none_iff]
  by_cases inside : address.toNat < memory.size
  · have contained : memory.Contains address.toInt 1 := contains_toInt_iff.mpr inside
    have within : ¬ memory.size ≤ address.toNat := by omega
    rw [if_pos contained]
    cases memory.terminator? address.toNat <;> simp [inside, within, eq_comm]
  · have outside : ¬ memory.Contains address.toInt 1 := mt contains_toInt_iff.mp inside
    have past : memory.size ≤ address.toNat := by omega
    rw [if_neg outside]
    simp [inside, past, eq_comm]

theorem read_error_kind {memory : Memory} {address : Int} {width : Nat} {fault : Fault}
    (refused : memory.read address width = .error fault) : fault.kind = .memoryAccess := by
  rw [read] at refused
  split at refused
  · cases refused
  · cases refused
    rfl

theorem load_error_kind {memory : Memory} {block : List UInt8} {address : Int} {fault : Fault}
    (refused : memory.load block address = .error fault) : fault.kind = .memoryAccess := by
  rw [load] at refused
  split at refused
  · cases refused
  · cases refused
    rfl

theorem readString_error_kind {memory : Memory} {address : Int} {fault : Fault}
    (refused : memory.readString address = .error fault) : fault.kind = .memoryAccess := by
  rw [readString] at refused
  split at refused
  · split at refused
    · cases refused
    · cases refused
      rfl
  · cases refused
    rfl

theorem seed_error_kind {memory : Memory} {seeds : Seeds} {fault : Fault}
    (refused : memory.seed seeds = .error fault) : fault.kind = .memoryAccess := by
  induction seeds generalizing memory with
  | nil => cases refused
  | cons pair rest induction =>
      rw [seed, List.foldlM_cons] at refused
      cases written : memory.write pair.1 4 pair.2 with
      | error cause =>
          rw [written] at refused
          cases refused
          exact load_error_kind written
      | ok next =>
          rw [written] at refused
          exact induction refused

theorem create_error_kind {size : Int} {seeds : Seeds} {fault : Fault}
    (refused : create size seeds = .error (.fault fault)) : fault.kind = .memoryAccess := by
  rw [create] at refused
  split at refused
  · cases refused
  · cases seeded : (zeros size.toNat).seed seeds with
    | ok memory =>
        rw [seeded] at refused
        cases refused
    | error cause =>
        rw [seeded] at refused
        cases refused
        exact seed_error_kind seeded

theorem positive_of_create {size : Int} {seeds : Seeds} {memory : Memory}
    (created : create size seeds = .ok memory) : 0 < size := by
  rw [create] at created
  split at created
  case isTrue => cases created
  case isFalse positive => omega

end Arm32.Memory
