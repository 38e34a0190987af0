import Arm32.Proofs.Memory.Refusals

namespace Arm32.Memory

/-! Strings in memory. A string goes from its address up to the first zero byte, which may
stand at that address or be the last byte of memory; without such a byte there is no
string. None of its own bytes is zero. -/

/-- The string from `first` on ends at `stop`, where its first zero byte is. -/
structure StringEnds (memory : Memory) (first stop : Nat) : Prop where
  after : first ≤ stop
  inside : stop < memory.size
  zero : memory.byteAt stop = 0
  earliest : ∀ index, first ≤ index → index < stop → memory.byteAt index ≠ 0

variable {memory : Memory} {first stop : Nat}

/-- A string whose first byte is not zero ends where the rest of it does. -/
theorem stringEnds_succ (other : memory.byteAt first ≠ 0) :
    memory.StringEnds (first + 1) stop ↔ memory.StringEnds first stop := by
  constructor
  · rintro ⟨after, inside, zero, earliest⟩
    refine ⟨by omega, inside, zero, fun index above below => ?_⟩
    rcases Nat.eq_or_lt_of_le above with rfl | later
    · exact other
    · exact earliest index later below
  · rintro ⟨after, inside, zero, earliest⟩
    have later : first ≠ stop := by
      rintro rfl
      exact other zero
    exact ⟨by omega, inside, zero, fun index above below => earliest index (by omega) below⟩

theorem terminator?_eq_some_iff :
    memory.terminator? first = some stop ↔ memory.StringEnds first stop := by
  induction first using terminator?.induct memory with
  | case1 first inside zero =>
      rw [terminator?, if_pos inside, if_pos zero]
      constructor
      · intro found
        cases found
        exact ⟨Nat.le_refl _, inside, zero, fun index above below => by omega⟩
      · rintro ⟨after, -, -, earliest⟩
        rcases Nat.eq_or_lt_of_le after with rfl | later
        · rfl
        · exact absurd zero (earliest first (Nat.le_refl _) later)
  | case2 first inside other induction =>
      rw [terminator?, if_pos inside, if_neg other, induction, stringEnds_succ other]
  | case3 first outside =>
      rw [terminator?, if_neg outside]
      constructor
      · intro impossible
        cases impossible
      · rintro ⟨after, inside, -, -⟩
        omega

/-- Where any zero byte follows, a string ends. -/
theorem exists_stringEnds {index : Nat} (above : first ≤ index) (inside : index < memory.size)
    (zero : memory.byteAt index = 0) : ∃ stop, memory.StringEnds first stop := by
  cases found : memory.terminator? first with
  | none => exact absurd zero (terminator?_eq_none_iff.mp found index above inside)
  | some stop => exact ⟨stop, terminator?_eq_some_iff.mp found⟩

/-! ## Reading -/

theorem readString_eq_ok_iff {address : Word} {bytes : List UInt8} :
    memory.readString address.toInt = .ok bytes ↔
      ∃ stop, memory.StringEnds address.toNat stop ∧
        bytes = memory.slice address.toNat (stop - address.toNat) := by
  have start : address.toInt.toNat = address.toNat := rfl
  rw [readString, start]
  split
  case isTrue =>
    cases found : memory.terminator? address.toNat with
    | none =>
        constructor
        · intro read
          cases read
        · rintro ⟨stop, ends, -⟩
          rw [terminator?_eq_some_iff.mpr ends] at found
          cases found
    | some stop =>
        have ends := terminator?_eq_some_iff.mp found
        constructor
        · intro read
          exact ⟨stop, ends, (Except.ok.inj read).symm⟩
        · rintro ⟨other, otherEnds, rfl⟩
          rw [terminator?_eq_some_iff.mpr otherEnds] at found
          cases found
          rfl
  case isFalse outside =>
    constructor
    · intro read
      cases read
    · rintro ⟨stop, ends, -⟩
      have after := ends.after
      have inside := ends.inside
      exact absurd (contains_toInt_iff.mpr (by omega)) outside

theorem ne_zero_of_mem_readString {address : Word} {bytes : List UInt8} {byte : UInt8}
    (read : memory.readString address.toInt = .ok bytes) (among : byte ∈ bytes) : byte ≠ 0 := by
  rcases readString_eq_ok_iff.mp read with ⟨stop, ends, rfl⟩
  rcases List.mem_map.mp among with ⟨index, covered, rfl⟩
  rcases List.mem_range'_1.mp covered with ⟨above, below⟩
  exact ends.earliest index above (by omega)

/-- A string is refused if no zero byte follows its address. -/
theorem readString_of_endless {address : Word}
    (endless : ¬ ∃ index, address.toNat ≤ index ∧ index < memory.size ∧ memory.byteAt index = 0) :
    ∃ fault, fault.kind = .memoryAccess ∧ memory.readString address.toInt = .error fault := by
  cases read : memory.readString address.toInt with
  | error fault => exact ⟨fault, readString_error_kind read, rfl⟩
  | ok bytes =>
      rcases readString_eq_ok_iff.mp read with ⟨stop, ends, -⟩
      exact absurd ⟨stop, ends.after, ends.inside, ends.zero⟩ endless

end Arm32.Memory
