import Arm32.Machine

namespace Arm32

/-! Program images. An image is copied to address zero; the header of an ELF
image says where its program starts. -/

abbrev Image := List UInt8

namespace Image

/-- How a 32-bit little-endian ELF image begins. -/
def elfMagic : List UInt8 := [0x7F, 0x45, 0x4C, 0x46, 1, 1, 1, 0]

def entryOffset : Nat := 0x18

/-- Whether an image begins like an ELF image and goes on past its entry point. -/
def isElf (image : Image) : Bool :=
  image.take elfMagic.length == elfMagic && entryOffset + 4 < image.length

def entryPoint (image : Image) : Word :=
  Word.ofInt (LittleEndian.ofBytes ((image.drop entryOffset).take 4))

/-- What is known of an image once it is loaded. -/
structure Loaded where
  size : Nat
  entryPoint : Word
  isElf : Bool
deriving DecidableEq, Repr

end Image

/-- Loads an image. The program counter moves only for an ELF image. -/
def Action.loadImage (image : Image) : Action Image.Loaded := do
  let capacity := (← get).memory.size
  if capacity < image.length then
    throw (.fault (.imageTooLarge image.length capacity))
  else
    loadMemory image 0
    if image.isElf then
      modify (·.setProgramCounter image.entryPoint)
    return ⟨image.length, (← get).programCounter, image.isElf⟩

end Arm32
