import Arm32.Memory
import Arm32.Word

namespace Arm32

/-! Memory byte by byte. What a load reads is put together from bytes, and what a
store leaves behind is told byte by byte: those of the value where it was written,
the old ones everywhere else. -/

namespace LittleEndian

/-- Each byte of an encoding is a digit of the value. -/
theorem getElem?_toBytes {width index : Nat} (value : Int) (inside : index < width) :
    (toBytes width value)[index]? =
      some (UInt8.ofNat (value / (1 <<< (8 * index) : Nat) % 256).toNat) := by
  induction width generalizing index value with
  | zero => cases inside
  | succ width induction =>
      cases index with
      | zero => simp [toBytes]
      | succ index =>
          have place : ((1 <<< (8 * (index + 1)) : Nat) : Int) =
              (256 : Int) * (1 <<< (8 * index) : Nat) := by
            rw [Nat.mul_succ, Nat.one_shiftLeft, Nat.one_shiftLeft, Nat.pow_add, Nat.mul_comm]
            rfl
          rw [toBytes, List.getElem?_cons_succ, induction _ (Nat.lt_of_succ_lt_succ inside), place,
            Int.ediv_ediv_of_nonneg (by decide)]

/-- The bytes of a word are its groups of eight bits. -/
theorem getElem?_toBytes_word {width index : Nat} (word : Word) (inside : index < width) :
    (toBytes width word.toInt)[index]? =
      some (UInt8.ofBitVec (word.extractLsb' (8 * index) 8)) := by
  have digit : (word.toInt / (1 <<< (8 * index) : Nat) % 256).toNat =
      word.toNat / 2 ^ (8 * index) % 256 := by
    rw [Nat.one_shiftLeft, Word.toInt, ← Int.natCast_ediv]
    omega
  rw [getElem?_toBytes _ inside, digit]
  congr 1
  apply UInt8.toNat_inj.mp
  rw [UInt8.toNat_ofNat', UInt8.toNat_ofBitVec, BitVec.extractLsb'_toNat,
    Nat.shiftRight_eq_div_pow, Nat.mod_mod]

end LittleEndian

namespace Memory

/-! ## Reading -/

/-- The sixteen bits at an address, the low byte first. -/
def halfWordAt (memory : Memory) (address : Nat) : BitVec 16 :=
  (memory.byteAt (address + 1)).toBitVec ++ (memory.byteAt address).toBitVec

/-- The word at an address, the low half first. -/
def wordAt (memory : Memory) (address : Nat) : Word :=
  memory.halfWordAt (address + 2) ++ memory.halfWordAt address

theorem toNat_halfWordAt (memory : Memory) (address : Nat) :
    (memory.halfWordAt address).toNat = memory.valueAt address 2 := by
  have low := (memory.byteAt address).toBitVec.isLt
  rw [halfWordAt, BitVec.toNat_append, ← Nat.shiftLeft_add_eq_or_of_lt low]
  simp only [valueAt, UInt8.toNat_toBitVec]
  omega

theorem toNat_wordAt (memory : Memory) (address : Nat) :
    (memory.wordAt address).toNat = memory.valueAt address 4 := by
  have low := (memory.halfWordAt address).isLt
  have halves : memory.valueAt address 4 =
      memory.valueAt address 2 + 0x10000 * memory.valueAt (address + 2) 2 := by
    simp only [valueAt, Nat.add_assoc, Nat.reduceAdd]
    omega
  rw [wordAt, BitVec.toNat_append, ← Nat.shiftLeft_add_eq_or_of_lt low, halves,
    toNat_halfWordAt, toNat_halfWordAt]
  omega

/-- A word is made of the bytes at its four addresses. -/
theorem wordAt_congr {first second : Memory} {address : Nat}
    (same : ∀ index, address ≤ index → index < address + 4 →
      first.byteAt index = second.byteAt index) :
    first.wordAt address = second.wordAt address := by
  rw [wordAt, wordAt, halfWordAt, halfWordAt, halfWordAt, halfWordAt, same _ (by omega) (by omega),
    same _ (by omega) (by omega), same _ (by omega) (by omega), same _ (by omega) (by omega)]

/-! ## Writing -/

theorem byteAt_setBytes_outside (memory : Memory) {address index : Nat} {block : List UInt8}
    (outside : index < address ∨ address + block.length ≤ index) :
    (memory.setBytes address block).byteAt index = memory.byteAt index := by
  induction block generalizing memory address with
  | nil => rfl
  | cons first rest induction =>
      rw [List.length_cons] at outside
      rw [setBytes, induction _ (by omega), byteAt_setByte_other _ _ _ _ (by omega)]

/-- Where a block was copied to, memory holds the block. -/
theorem byteAt_setBytes_inside (memory : Memory) {address index : Nat} {block : List UInt8}
    {byte : UInt8} (found : block[index]? = some byte)
    (inside : address + block.length ≤ memory.size) :
    (memory.setBytes address block).byteAt (address + index) = byte := by
  induction block generalizing memory address index with
  | nil => cases found
  | cons first rest induction =>
      rw [List.length_cons] at inside
      cases index with
      | zero =>
          rw [List.getElem?_cons_zero, Option.some.injEq] at found
          rw [Nat.add_zero, setBytes, byteAt_setBytes_outside _ (by omega), ← found,
            byteAt_setByte_same _ _ _ (by omega)]
      | succ index =>
          rw [List.getElem?_cons_succ] at found
          have place : address + (index + 1) = address + 1 + index := by omega
          rw [setBytes, place]
          exact induction _ found (by rw [size_setByte]; omega)

/-- The second memory is the first one with the low bytes of a value at an address. -/
structure Stored {width : Nat} (before after : Memory) (address count : Nat)
    (value : BitVec width) : Prop where
  size : after.size = before.size
  inside : ∀ index, address ≤ index → index < address + count →
    (after.byteAt index).toBitVec = value.extractLsb' (8 * (index - address)) 8
  outside : ∀ index, ¬ (address ≤ index ∧ index < address + count) →
    after.byteAt index = before.byteAt index

theorem stored_setBytes (memory : Memory) {address : Int} {count : Nat} (value : Word)
    (inside : memory.Contains address count) :
    memory.Stored (memory.setBytes address.toNat (LittleEndian.toBytes count value.toInt))
      address.toNat count value where
  size := memory.size_setBytes address.toNat _
  inside := by
    intro index above below
    have start := inside.1
    have room := inside.2
    have place : address.toNat + (index - address.toNat) = index := by omega
    have found :=
      LittleEndian.getElem?_toBytes_word value (by omega : index - address.toNat < count)
    have byte := @byteAt_setBytes_inside memory address.toNat _ _ _ found
      (by rw [LittleEndian.length_toBytes]; omega)
    rw [place] at byte
    rw [byte]
  outside := by
    intro index outside
    rw [memory.byteAt_setBytes_outside]
    rw [LittleEndian.length_toBytes]
    omega

theorem Stored.contains_iff {before after : Memory} {address count width : Nat}
    {value : BitVec width} (stored : before.Stored after address count value) (other : Int)
    (otherCount : Nat) :
    after.Contains other otherCount ↔ before.Contains other otherCount := by
  rw [Contains, Contains, stored.size]

/-- A word that was stored is read again. -/
theorem Stored.wordAt_eq {before after : Memory} {address : Nat} {word : Word}
    (stored : before.Stored after address 4 word) : after.wordAt address = word := by
  have byte (index : Nat) (below : index < 4) :
      (after.byteAt (address + index)).toBitVec = word.extractLsb' (8 * index) 8 := by
    rw [stored.inside _ (by omega) (by omega), Nat.add_sub_cancel_left]
  have lowest := byte 0 (by decide)
  have low : word.extractLsb' (8 * 1) 8 ++ word.extractLsb' (8 * 0) 8 = word.extractLsb' 0 16 :=
    BitVec.extractLsb'_append_extractLsb'_eq_extractLsb' rfl
  have high : word.extractLsb' (8 * 3) 8 ++ word.extractLsb' (8 * 2) 8 =
      word.extractLsb' 16 16 :=
    BitVec.extractLsb'_append_extractLsb'_eq_extractLsb' rfl
  have whole : word.extractLsb' 16 16 ++ word.extractLsb' 0 16 = word.extractLsb' 0 32 :=
    BitVec.extractLsb'_append_extractLsb'_eq_extractLsb' rfl
  rw [Nat.add_zero] at lowest
  rw [wordAt, halfWordAt, halfWordAt, Nat.add_assoc, byte 3 (by decide), byte 2 (by decide),
    byte 1 (by decide), lowest, low, high, whole]
  exact BitVec.extractLsb'_eq_self

/-- Two words next to each other are one double word, the low word first. -/
theorem Stored.append {before between after : Memory} {address next : Nat} {low high : Word}
    (first : before.Stored between address 4 low) (second : between.Stored after next 4 high)
    (adjacent : next = address + 4) : before.Stored after address 8 (high ++ low) where
  size := second.size.trans first.size
  inside := by
    intro index above below
    apply BitVec.eq_of_getLsbD_eq
    intro bit inside
    by_cases lower : index < address + 4
    · rw [second.outside index (by omega), first.inside index above lower]
      simp only [BitVec.getLsbD_extractLsb', BitVec.getLsbD_append, inside, decide_true,
        Bool.true_and]
      rw [if_pos (by omega)]
    · rw [second.inside index (by omega) (by omega)]
      simp only [BitVec.getLsbD_extractLsb', BitVec.getLsbD_append, inside, decide_true,
        Bool.true_and]
      rw [if_neg (by omega)]
      congr 1
      omega
  outside := by
    intro index outside
    rw [second.outside index (by omega), first.outside index (by omega)]

end Memory

end Arm32
