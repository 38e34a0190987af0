import Arm32.Numeral
import Arm32.Text.Blank
import Arm32.Text.Digit

namespace Arm32.Numeral

/-! Integer literals as users write them: blanks at the ends, a sign, digits of
any script, and single underscores between digits. A marked literal may also
name its base. -/

/-- The value of a figure in a base of at most sixteen. -/
def figureValue? (base : Nat) (character : Char) : Option Nat :=
  let value? :=
    if 'a' ≤ character && character ≤ 'f' then some (character.toNat - 'a'.toNat + 10)
    else if 'A' ≤ character && character ≤ 'F' then some (character.toNat - 'A'.toNat + 10)
    else Text.digitValue? character
  value?.filter (· < base)

/-- The value of a run of figures and how many there are, carried on from a
value and a count. Underscores stand one at a time between two figures. -/
def readFigures? (base value count : Nat) : List Char → Option (Nat × Nat)
  | [] => none
  | character :: rest =>
      match figureValue? base character, rest with
      | none, _ => none
      | some figure, [] => some (value * base + figure, count + 1)
      | some figure, '_' :: more =>
          readFigures? base (value * base + figure) (count + 1) more
      | some figure, more =>
          readFigures? base (value * base + figure) (count + 1) more

def readMagnitude? (base : Nat) (text : List Char) : Option Nat :=
  match readFigures? base 0 0 text with
  | none => none
  | some (value, count) =>
      if base = 10 ∧ maximalDecimalFigures < count then none else some value

/-- One underscore may stand between the mark of a base and the figures. -/
def dropUnderscore : List Char → List Char
  | '_' :: rest => rest
  | text => text

/-- The base that a mark after a leading zero names. -/
def markedBase? (mark : Char) : Option Nat :=
  if mark == 'x' || mark == 'X' then some 16
  else if mark == 'o' || mark == 'O' then some 8
  else if mark == 'b' || mark == 'B' then some 2
  else none

/-- An unsigned numeral that may name its base. Without a mark a leading zero
is allowed only if the number is zero. -/
def readMarkedMagnitude? (text : List Char) : Option Nat :=
  match text with
  | first :: mark :: rest =>
      if Text.digitValue? first = some 0 then
        match markedBase? mark with
        | some base => readMagnitude? base (dropUnderscore rest)
        | none => (readMagnitude? 10 text).filter (· == 0)
      else readMagnitude? 10 text
  | _ => readMagnitude? 10 text

/-- Reads a sign and hands the rest to a reader of magnitudes. -/
def readSigned? (magnitude? : List Char → Option Nat) : List Char → Option Int
  | '-' :: rest => (magnitude? rest).map fun value : Nat => -(value : Int)
  | '+' :: rest => (magnitude? rest).map fun value : Nat => (value : Int)
  | text => (magnitude? text).map fun value : Nat => (value : Int)

/-- A decimal literal. Leading zeros are allowed. -/
def readDecimal? (text : String) : Option Int :=
  readSigned? (readMagnitude? 10) (Text.trim text.toList)

def readPlainDecimal? (text : String) : Option Int :=
  let figures := Text.trim text.toList
  if figures.all fun character => character.toNat < 0x80 then
    readSigned? (readMagnitude? 10) figures
  else none

/-- A literal in base ten, or in the base that its mark names. -/
def readLiteral? (text : String) : Option Int :=
  readSigned? readMarkedMagnitude? (Text.trim text.toList)

end Arm32.Numeral
