namespace Arm32

/-! The console on which programs write. -/

/-- All text so far, the text of the last write since the console was last
cleared, and what has gone to an echo stream if there is one. The stream is one
whose writes succeed, so that a write is never kept out of it. -/
structure Console where
  output : String := ""
  last? : Option String := none
  copy? : Option String := none
deriving DecidableEq, Repr, Inhabited

namespace Console

def write (console : Console) (text : String) : Console where
  output := console.output ++ text
  last? := some text
  copy? := console.copy?.map (· ++ text)

/-- Forgets the last write; what was written stays. -/
def clearLast (console : Console) : Console :=
  { console with last? := none }

end Console

end Arm32
