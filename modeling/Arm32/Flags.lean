namespace Arm32

/-! The four condition flags, and the conditions under which an instruction
takes effect. -/

structure Flags where
  negative : Bool := false
  zero : Bool := false
  carry : Bool := false
  overflow : Bool := false
deriving DecidableEq, Repr, Inhabited

namespace Flags

/-- Sets the flags that are given and keeps the others. -/
def update (flags : Flags) (negative? zero? carry? overflow? : Option Bool) : Flags where
  negative := negative?.getD flags.negative
  zero := zero?.getD flags.zero
  carry := carry?.getD flags.carry
  overflow := overflow?.getD flags.overflow

def digit (flag : Bool) : String :=
  if flag then "1" else "0"

/-- The flags in the order of their initials. -/
def text (flags : Flags) : String :=
  "(NZCV) " ++ digit flags.negative ++ digit flags.zero ++ digit flags.carry ++
    digit flags.overflow

end Flags

inductive Condition where
  | equal
  | notEqual
  | carrySet
  | carryClear
  | negative
  | positive
  | overflow
  | noOverflow
  | unsignedHigher
  | unsignedLowerOrSame
  | greaterOrEqual
  | lessThan
  | greaterThan
  | lessOrEqual
  | always
deriving DecidableEq, Repr, Inhabited

namespace Condition

def all : List Condition :=
  [.equal, .notEqual, .carrySet, .carryClear, .negative, .positive, .overflow,
   .noOverflow, .unsignedHigher, .unsignedLowerOrSame, .greaterOrEqual, .lessThan,
   .greaterThan, .lessOrEqual, .always]

/-- The number that stands for the condition in the top four bits of a word. -/
def code : Condition → Nat
  | .equal => 0
  | .notEqual => 1
  | .carrySet => 2
  | .carryClear => 3
  | .negative => 4
  | .positive => 5
  | .overflow => 6
  | .noOverflow => 7
  | .unsignedHigher => 8
  | .unsignedLowerOrSame => 9
  | .greaterOrEqual => 10
  | .lessThan => 11
  | .greaterThan => 12
  | .lessOrEqual => 13
  | .always => 14

/-- The condition with a code; code 15 names none. -/
def ofCode? : Nat → Option Condition
  | 0 => some .equal
  | 1 => some .notEqual
  | 2 => some .carrySet
  | 3 => some .carryClear
  | 4 => some .negative
  | 5 => some .positive
  | 6 => some .overflow
  | 7 => some .noOverflow
  | 8 => some .unsignedHigher
  | 9 => some .unsignedLowerOrSame
  | 10 => some .greaterOrEqual
  | 11 => some .lessThan
  | 12 => some .greaterThan
  | 13 => some .lessOrEqual
  | 14 => some .always
  | _ => none

@[simp] theorem ofCode_code (condition : Condition) :
    ofCode? condition.code = some condition := by
  cases condition <;> rfl

theorem mem_all (condition : Condition) : condition ∈ all := by
  cases condition <;> decide

def holds (condition : Condition) (flags : Flags) : Bool :=
  match condition with
  | .equal => flags.zero
  | .notEqual => !flags.zero
  | .carrySet => flags.carry
  | .carryClear => !flags.carry
  | .negative => flags.negative
  | .positive => !flags.negative
  | .overflow => flags.overflow
  | .noOverflow => !flags.overflow
  | .unsignedHigher => flags.carry && !flags.zero
  | .unsignedLowerOrSame => !flags.carry || flags.zero
  | .greaterOrEqual => flags.negative == flags.overflow
  | .lessThan => flags.negative != flags.overflow
  | .greaterThan => !flags.zero && flags.negative == flags.overflow
  | .lessOrEqual => flags.zero || flags.negative != flags.overflow
  | .always => true

/-- The condition's letters after a mnemonic. -/
def suffix : Condition → String
  | .equal => "EQ"
  | .notEqual => "NE"
  | .carrySet => "CS"
  | .carryClear => "CC"
  | .negative => "MI"
  | .positive => "PL"
  | .overflow => "VS"
  | .noOverflow => "VC"
  | .unsignedHigher => "HI"
  | .unsignedLowerOrSame => "LS"
  | .greaterOrEqual => "GE"
  | .lessThan => "LT"
  | .greaterThan => "GT"
  | .lessOrEqual => "LE"
  | .always => ""

end Condition

end Arm32
