import Arm32.Base64

namespace Arm32.Base64

/-! Base64 read back. The bytes of a group of four letters are those that it was
written for, whether three, two or one of them were left. -/

/-! ## Letters -/

/-- The letters for bytes, with padding at their end. -/
def letters : List UInt8 → List Char
  | [] => []
  | [first] => [character (first.toNat / 4), character (first.toNat % 4 * 16), '=', '=']
  | [first, second] =>
      [character (first.toNat / 4), character (first.toNat % 4 * 16 + second.toNat / 16),
       character (second.toNat % 16 * 4), '=']
  | first :: second :: third :: rest =>
      character (first.toNat / 4) :: character (first.toNat % 4 * 16 + second.toNat / 16) ::
        character (second.toNat % 16 * 4 + third.toNat / 64) :: character (third.toNat % 64) ::
          letters rest

variable {before : List UInt8} {afterGroup : Bool}

example : encode [1, 2, 3, 255] = "AQID/w==" := by decide
example : decode? "AQID/w==" = some [1, 2, 3, 255] := by decide
-- A letter without a group, and padding that is not needed.
example : decode? "AQIDx" = none := by decide
example : decode? "AQID===" = some [1, 2, 3] := by decide

end Arm32.Base64
