namespace Arm32.Text

/-! Characters that may surround a numeral. -/

/-- The ASCII blanks: space, tab, line feed, vertical tab, form feed, return. -/
def isAsciiBlank (character : Char) : Bool :=
  character == ' ' || (9 ≤ character.toNat && character.toNat ≤ 13)

/-- The blanks outside ASCII, as of Unicode 14. -/
def wideBlanks : List Nat :=
  [0x85, 0xA0, 0x1680, 0x2000, 0x2001, 0x2002, 0x2003, 0x2004, 0x2005, 0x2006,
   0x2007, 0x2008, 0x2009, 0x200A, 0x2028, 0x2029, 0x202F, 0x205F, 0x3000]

def isBlank (character : Char) : Bool :=
  isAsciiBlank character || wideBlanks.contains character.toNat

def trim (text : List Char) : List Char :=
  let front := text.dropWhile isBlank
  (front.reverse.dropWhile isBlank).reverse

end Arm32.Text
