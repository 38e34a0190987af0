namespace Arm32.LittleEndian

/-! Little-endian encodings: the least significant byte comes first. -/

/-- The low `width` bytes of the two's complement expansion of an integer. -/
def toBytes : (width : Nat) → (value : Int) → List UInt8
  | 0, _ => []
  | width + 1, value => UInt8.ofNat (value % 256).toNat :: toBytes width (value / 256)

/-- The number that a list of bytes encodes. -/
def ofBytes : List UInt8 → Nat
  | [] => 0
  | byte :: rest => byte.toNat + 256 * ofBytes rest

@[simp] theorem length_toBytes (width : Nat) (value : Int) :
    (toBytes width value).length = width := by
  induction width generalizing value with
  | zero => rfl
  | succ width induction => simp [toBytes, induction]

example : toBytes 4 (-2) = [0xFE, 0xFF, 0xFF, 0xFF] := by decide
example : ofBytes [0x34, 0x12] = 0x1234 := by decide

end Arm32.LittleEndian
