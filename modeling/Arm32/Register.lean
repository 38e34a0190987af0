namespace Arm32

/-! Registers. Instructions name registers by number, and a number that was not
read from a word may name none. -/

abbrev Register := Fin 16

namespace Register

/-- The link register holds the return address of a call. -/
def link : Register := 14

def programCounter : Register := 15

/-- The register that holds the number of a system call. -/
def callNumber : Register := 7

theorem bound (register : Register) : register.val < 16 :=
  register.isLt

/-- The number of a register, as instructions hold it. -/
def number (register : Register) : Int :=
  register.val

def ofNumber? (number : Int) : Option Register :=
  if inside : 0 ≤ number ∧ number < 16 then some ⟨number.toNat, by omega⟩ else none

@[simp] theorem ofNumber?_number (register : Register) :
    ofNumber? register.number = some register := by
  have bound := register.bound
  unfold ofNumber? number
  rw [dif_pos (by omega)]
  rfl

/-- The register that a number names. Numbers below zero count from the last
register backwards. -/
def named? (number : Int) : Option Register :=
  if number < 0 then ofNumber? (number + 16) else ofNumber? number

end Register

end Arm32
