import Arm32.Proofs.Execution.Effects
import Arm32.Proofs.Memory.Strings

namespace Arm32

/-! The write call. It puts the string that register 1 points to on the console, one
character for each byte, and touches nothing else. A string without an end is a fault that
leaves the machine as it was. -/

/-! ## Texts -/

namespace SystemCall

theorem toNat_ofByte (byte : UInt8) : (Char.ofNat byte.toNat).toNat = byte.toNat := by
  have small := byte.toNat_lt
  have valid : byte.toNat.isValidChar := .inl (by omega)
  rw [Char.ofNat, dif_pos valid]
  rfl

/-- The code points of a text are the bytes that it was made of. -/
theorem codePoints_textOf (bytes : List UInt8) :
    (textOf bytes).toList.map Char.toNat = bytes.map UInt8.toNat := by
  rw [textOf, String.toList_ofList, List.map_map]
  exact List.map_congr_left fun byte _ => toNat_ofByte byte

/-- A text that bytes other than zero can spell. -/
def Writable (text : String) : Prop :=
  ∀ character ∈ text.toList, 1 ≤ character.toNat ∧ character.toNat ≤ 0xFF

theorem writable_empty : Writable "" := by
  intro character among
  cases among

theorem Writable.append {text rest : String} (writable : Writable text)
    (restWritable : Writable rest) : Writable (text ++ rest) := by
  intro character among
  rw [String.toList_append] at among
  rcases List.mem_append.mp among with before | behind
  · exact writable character before
  · exact restWritable character behind

theorem writable_textOf {bytes : List UInt8} (nonzero : ∀ byte ∈ bytes, byte ≠ 0) :
    Writable (textOf bytes) := by
  intro character among
  rw [textOf, String.toList_ofList] at among
  rcases List.mem_map.mp among with ⟨byte, taken, rfl⟩
  have small := byte.toNat_lt
  have positive : byte.toNat ≠ 0 := fun zero => nonzero byte taken (UInt8.toNat_inj.mp zero)
  rw [toNat_ofByte]
  omega

end SystemCall

/-! ## Calls -/

namespace Action

variable {machine : Machine} {console : Console}

/-- What a write call to the only descriptor does is decided by memory. -/
theorem run_systemCall_write (number : machine.registers.get Register.callNumber = 4)
    (descriptor : machine.registers.get 0 = 1) (attached : machine.console? = some console) :
    systemCall.run machine =
      match machine.memory.readString (machine.registers.get 1).toInt with
      | .ok bytes =>
          .ok () { machine with console? := some (console.write (SystemCall.textOf bytes)) }
      | .error fault => .error (.fault fault) machine := by
  have call : machine.operandValue Register.callNumber = 4 := number
  have first : machine.valueOf 0 = SystemCall.standardOutput := descriptor
  have second : machine.valueOf 1 = machine.registers.get 1 := rfl
  have there : machine.console?.isNone = false := by rw [attached]; rfl
  rw [run_systemCall, call]
  change writeCall.run machine = _
  rw [run_writeCall, first, if_neg (by simp), there, if_neg Bool.false_ne_true, second]
  cases machine.memory.readString (machine.registers.get 1).toInt with
  | error fault => rfl
  | ok bytes => simp only [Machine.withOutput, attached]; rfl

/-- The write call puts exactly the string in memory on the console, or fails without a
trace of it. -/
theorem systemCall_writes (number : machine.registers.get Register.callNumber = 4)
    (descriptor : machine.registers.get 0 = 1) (attached : machine.console? = some console) :
    let first := (machine.registers.get 1).toNat
    (∀ stop, machine.memory.StringEnds first stop →
      ∃ text : String,
        text.toList.map Char.toNat =
          (machine.memory.slice first (stop - first)).map UInt8.toNat ∧
        systemCall.run machine =
          .ok () { machine with console? := some (console.write text) }) ∧
      ((¬ ∃ index, first ≤ index ∧ index < machine.memory.size ∧
          machine.memory.byteAt index = 0) →
        ∃ fault, fault.kind = .memoryAccess ∧
          systemCall.run machine = .error (.fault fault) machine) := by
  intro first
  rw [run_systemCall_write number descriptor attached]
  constructor
  · intro stop ends
    rw [Memory.readString_eq_ok_iff.mpr ⟨stop, ends, rfl⟩]
    exact ⟨_, SystemCall.codePoints_textOf _, rfl⟩
  · intro endless
    rcases Memory.readString_of_endless endless with ⟨fault, kind, read⟩
    rw [read]
    exact ⟨fault, kind, rfl⟩

end Action

end Arm32
