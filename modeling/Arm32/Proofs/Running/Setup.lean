import Arm32.Image
import Arm32.Proofs.Execution.Effects

namespace Arm32

/-! What comes before the first cycle: a memory with its seeds, and the image on
top of them. Neither can fail by a misuse once the size of the memory is positive. -/

theorem Memory.create_error {size : Int} {seeds : Memory.Seeds} {failure : Failure}
    (positive : 0 < size) (failed : Memory.create size seeds = .error failure) :
    ∃ fault, failure = .fault fault := by
  rw [Memory.create, if_neg (by omega)] at failed
  cases seeded : (Memory.zeros size.toNat).seed seeds with
  | ok memory =>
      rw [seeded] at failed
      cases failed
  | error fault =>
      rw [seeded] at failed
      cases failed
      exact ⟨fault, rfl⟩

/-- A machine with an image at address zero, and the program counter where an ELF
image wants it. -/
def Machine.withImage (machine : Machine) (image : Image) : Machine :=
  let loaded : Machine := { machine with memory := machine.memory.setBytes 0 image }
  if image.isElf then loaded.setProgramCounter image.entryPoint else loaded

theorem Machine.programCounter_withImage (machine : Machine) (image : Image) :
    (machine.withImage image).programCounter =
      if image.isElf then image.entryPoint else machine.programCounter := by
  unfold withImage
  cases image.isElf with
  | true => exact machine.setProgramCounter_same _
  | false => rfl

theorem Action.run_loadImage (machine : Machine) (image : Image) :
    (loadImage image).run machine =
      if machine.memory.size < image.length then
        .error (.fault (.imageTooLarge image.length machine.memory.size)) machine
      else
        .ok ⟨image.length, (machine.withImage image).programCounter, image.isElf⟩
          (machine.withImage image) := by
  simp only [loadImage, EStateM.run_bind, EStateM.run_get]
  by_cases tooLarge : machine.memory.size < image.length
  · simp only [if_pos tooLarge]
    rfl
  · have inside : machine.memory.Contains 0 image.length := by
      simp only [Memory.Contains]
      omega
    have copied : (loadMemory image 0).run machine =
        .ok () { machine with memory := machine.memory.setBytes 0 image } := by
      rw [run_loadMemory, if_pos inside]
      rfl
    simp only [if_neg tooLarge, EStateM.run_bind, copied, Machine.withImage]
    cases image.isElf with
    | true => rfl
    | false => rfl

theorem Action.loadImage_error_kind {machine after : Machine} {image : Image} {fault : Fault}
    (refused : (loadImage image).run machine = .error (.fault fault) after) :
    fault.kind = .memoryAccess := by
  rw [run_loadImage] at refused
  split at refused
  · cases refused
    rfl
  · cases refused

end Arm32
