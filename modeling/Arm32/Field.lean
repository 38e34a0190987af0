import Arm32.Fault

namespace Arm32.Field

/-! Bit fields whose width is not known to be sensible. A field without bits has
no sign. -/

def checkWidth (width : Int) : Except Misuse Nat :=
  if width ≤ 0 then .error .negativeShift else .ok width.toNat

/-- A field read as a two's complement integer. -/
def toSigned (value width : Int) : Except Misuse Int :=
  (checkWidth width).map (Arm32.toSigned value)

/-- A field extended to a word by copies of its sign. -/
def signExtend (value width : Int) : Except Misuse Word :=
  (checkWidth width).map (Word.signExtend value)

end Arm32.Field
