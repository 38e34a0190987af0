import Arm32.Proofs.Execution.Atomicity
import Arm32.Proofs.Memory.Seeding
import Arm32.Proofs.Running.Reports

namespace Arm32

/-! How programs begin. The options and the image describe the memory and the program
counter of the first cycle completely. If the seeds or the image do not fit, there is no
first cycle, and the report says no more than that. -/

/-- The machine at the first cycle of an image. -/
structure Machine.Begins (machine : Machine) (image : Image) (options : Options) : Prop where
  size : machine.memory.size = options.memorySize
  /-- The image is on top of the seeds. -/
  bytes : ∀ index : Nat, index < machine.memory.size →
    machine.memory.byteAt index = image[index]?.getD (options.seeds.byteAt index)
  given : ∀ address, options.startAddress? = some address →
    machine.programCounter.toInt = address % 0x100000000
  entry : options.startAddress? = none → Image.elfMagic <+: image → 0x1C < image.length →
    machine.programCounter.toNat = LittleEndian.ofBytes ((image.drop 0x18).take 4)
  plain : options.startAddress? = none → ¬ (Image.elfMagic <+: image ∧ 0x1C < image.length) →
    machine.programCounter = 0
  registers : ∀ register, register ≠ Register.programCounter → machine.registers.get register = 0
  flags : machine.flags = {}
  running : machine.halted = false

/-- The report of a run that failed before its first cycle. -/
structure Report.NeverBegan (report : Report) : Prop where
  status : report.outcome.status = "error"
  diagnostic : ∃ diagnostic, report.outcome.diagnostic? = some diagnostic ∧
    diagnostic.kind.name = "MemoryAccessFault" ∧ diagnostic.step = 0 ∧ diagnostic.address = 0 ∧
    diagnostic.word? = none
  steps : report.steps = 0
  trace : report.trace = {}
  output : report.output = ""
  registers : ∀ register, report.machine.registers.get register = 0

/-! ## Entry points -/

theorem Image.isElf_iff (image : Image) :
    image.isElf = true ↔ elfMagic <+: image ∧ 0x1C < image.length := by
  rw [isElf, Bool.and_eq_true, beq_iff_eq, decide_eq_true_iff, List.prefix_iff_eq_take]
  exact and_congr eq_comm Iff.rfl

theorem LittleEndian.ofBytes_lt (bytes : List UInt8) : ofBytes bytes < 256 ^ bytes.length := by
  induction bytes with
  | nil => decide
  | cons byte rest induction =>
      have bound := byte.toNat_lt
      rw [ofBytes, List.length_cons, pow_succ]
      omega

/-- Four bytes are a word. -/
theorem Image.toNat_entryPoint (image : Image) :
    image.entryPoint.toNat = LittleEndian.ofBytes ((image.drop 0x18).take 4) := by
  have bound := LittleEndian.ofBytes_lt ((image.drop 0x18).take 4)
  have short : ((image.drop 0x18).take 4).length ≤ 4 := List.length_take_le _ _
  have room : 256 ^ ((image.drop 0x18).take 4).length ≤ 256 ^ 4 :=
    Nat.pow_le_pow_right (by decide) short
  have reduced := Word.toNat_ofInt (LittleEndian.ofBytes ((image.drop 0x18).take 4))
  rw [entryPoint, entryOffset]
  omega

/-! ## Machines that are set up -/

/-- Loading an image and placing the program counter do not touch the other registers. -/
theorem Machine.sameButCounter_withImage (machine : Machine) (image : Image) :
    Machine.SameButCounter { machine with memory := machine.memory.setBytes 0 image }
      (machine.withImage image) := by
  rw [withImage]
  split
  case isTrue => exact sameButCounter_setProgramCounter _ _
  case isFalse => exact .refl _

namespace Run

variable {image : Image} {options : Options}

theorem sameButCounter_place (machine : Machine) :
    machine.SameButCounter (place options machine) := by
  rw [place]
  split
  case h_1 => exact machine.sameButCounter_setProgramCounter _
  case h_2 => exact .refl machine

theorem programCounter_place (machine : Machine) :
    (place options machine).programCounter =
      match options.startAddress? with
      | some address => Word.ofInt address
      | none => machine.programCounter := by
  rw [place]
  cases options.startAddress? with
  | some address => exact machine.setProgramCounter_same _
  | none => rfl

/-- A machine with the seeds in its memory and the image on top of them begins as it
should. -/
theorem begins_place {memory : Memory} (sized : memory.size = options.memorySize)
    (seeded : ∀ index : Nat, index < memory.size →
      memory.byteAt index = options.seeds.byteAt index)
    (fits : image.length ≤ memory.size) :
    (place options ((freshMachine options memory).withImage image)).Begins image options := by
  have same := ((freshMachine options memory).sameButCounter_withImage image).trans
    (@sameButCounter_place options _)
  have loaded : (place options ((freshMachine options memory).withImage image)).memory =
      memory.setBytes 0 image := same.memory
  have counter := @programCounter_place options ((freshMachine options memory).withImage image)
  rw [Machine.programCounter_withImage] at counter
  refine ⟨?_, ?_, ?_, ?_, ?_, ?_, same.flags, same.halted⟩
  case refine_1 => rw [loaded, Memory.size_setBytes, sized]
  case refine_2 =>
    intro index inside
    rw [loaded, Memory.size_setBytes] at inside
    rw [loaded]
    cases found : image[index]? with
    | none =>
        have past := List.getElem?_eq_none_iff.mp found
        rw [memory.byteAt_setBytes_outside (by omega)]
        exact seeded index inside
    | some byte =>
        have written := memory.byteAt_setBytes_inside found (by omega : 0 + _ ≤ _)
        rw [Nat.zero_add] at written
        exact written
  case refine_3 =>
    intro address given
    rw [counter, given]
    exact Word.toNat_ofInt address
  case refine_4 =>
    intro unset magic long
    rw [counter, unset, if_pos (image.isElf_iff.mpr ⟨magic, long⟩)]
    exact image.toNat_entryPoint
  case refine_5 =>
    intro unset other
    rw [counter, unset, if_neg fun elf => other (image.isElf_iff.mp elf)]
    rfl
  case refine_6 =>
    intro register different
    rw [same.registers register different]
    exact Vector.getElem_replicate register.isLt

theorem Fault.diagnostic_of_memoryAccess {fault : Fault} (kind : fault.kind = .memoryAccess) :
    fault.diagnostic.address = 0 ∧ fault.diagnostic.word? = none := by
  cases fault <;> first | exact ⟨rfl, rfl⟩ | cases kind

theorem neverBegan_abandoned {fault : Fault} (kind : fault.kind = .memoryAccess)
    (memory : Memory) (event : Event) :
    (abandoned options fault (freshMachine options memory) event).NeverBegan where
  status := rfl
  diagnostic := by
    rcases Fault.diagnostic_of_memoryAccess kind with ⟨address, word⟩
    have name : fault.diagnostic.kind.name = "MemoryAccessFault" := by
      rw [Fault.diagnostic, kind]
      rfl
    exact ⟨fault.diagnostic, rfl, name, rfl, address, word⟩
  steps := rfl
  trace := rfl
  output := rfl
  registers := fun register => Vector.getElem_replicate register.isLt

/-! ## Setting up -/

theorem start_fitting (positive : 0 < options.memorySize)
    (fit : options.seeds.Fit options.memorySize) (room : image.length ≤ options.memorySize) :
    ∃ machine loaded, start? image options = some machine ∧
      program image options = resume options loaded machine ∧ machine.Begins image options := by
  rcases Memory.create_fitting positive fit with ⟨memory, created, sized, seeded⟩
  have fits : image.length ≤ memory.size := by omega
  have within : ¬ (freshMachine options memory).memory.size < image.length := Nat.not_lt.mpr fits
  have loads := Action.run_loadImage (freshMachine options memory) image
  rw [if_neg within] at loads
  refine ⟨place options ((freshMachine options memory).withImage image),
    ⟨image.length, ((freshMachine options memory).withImage image).programCounter, image.isElf⟩,
    ?_, ?_, begins_place sized seeded fits⟩
  · rw [start?, created]
    dsimp only
    rw [loads]
  · rw [program, created]
    dsimp only
    rw [loads]

theorem start_unfitting (positive : 0 < options.memorySize)
    (unfit : ¬ (options.seeds.Fit options.memorySize ∧ image.length ≤ options.memorySize)) :
    start? image options = none ∧
      ∃ report, program image options = .ok report ∧ report.NeverBegan := by
  by_cases fit : options.seeds.Fit options.memorySize
  · rcases Memory.create_fitting positive fit with ⟨memory, created, sized, -⟩
    have tooLong : ¬ image.length ≤ options.memorySize := fun room => unfit ⟨fit, room⟩
    have large : (freshMachine options memory).memory.size < image.length := by
      change memory.size < image.length
      omega
    have refuses := Action.run_loadImage (freshMachine options memory) image
    rw [if_pos large] at refuses
    rw [start?, program, created]
    dsimp only
    rw [refuses]
    exact ⟨rfl, _, rfl, neverBegan_abandoned rfl memory _⟩
  · rcases Memory.create_unfitting positive fit with ⟨fault, refused⟩
    rw [start?, program, refused]
    exact ⟨rfl, _, rfl, neverBegan_abandoned (Memory.create_error_kind refused) _ _⟩

/-- A program begins with exactly the memory and the program counter that its image and
the options describe, if all seeds and the image fit, and does not begin otherwise. -/
theorem program_begins (image : Image) {options : Options} (positive : 0 < options.memorySize) :
    ((start? image options).isSome ↔
      (∀ seed ∈ options.seeds, 0 ≤ seed.1 ∧ seed.1 + 4 ≤ options.memorySize) ∧
        image.length ≤ options.memorySize) ∧
    (∀ machine, start? image options = some machine →
      machine.Begins image options ∧
        ∃ loaded, program image options = resume options loaded machine) ∧
    (start? image options = none →
      ∃ report, program image options = .ok report ∧ report.NeverBegan) := by
  by_cases fits : options.seeds.Fit options.memorySize ∧ image.length ≤ options.memorySize
  · rcases start_fitting positive fits.1 fits.2 with ⟨machine, loaded, started, resumed, begins⟩
    rw [started]
    refine ⟨iff_of_true rfl fits, ?_, ?_⟩
    · rintro other ⟨⟩
      exact ⟨begins, loaded, resumed⟩
    · rintro ⟨⟩
  · rcases start_unfitting positive fits with ⟨unstarted, never⟩
    rw [unstarted]
    refine ⟨iff_of_false (by decide) fits, ?_, fun _ => never⟩
    rintro machine ⟨⟩

/-- The shortest image that counts as ELF, over seeds that overlap. -/
theorem program_begins_overlapping :
    let image : Image :=
      Image.elfMagic ++ List.replicate 16 0 ++ [0x20, 0, 0, 0x80, 9]
    let options : Options :=
      { memorySize := 32, seeds := [(28, 0x11223344), (26, 0x5566778899)] }
    ∃ machine, start? image options = some machine ∧ machine.memory.byteAt 28 = 9 ∧
      machine.memory.byteAt 29 = 0x66 ∧ machine.memory.byteAt 30 = 0x22 ∧
      machine.memory.byteAt 31 = 0x11 ∧ machine.programCounter.toNat = 0x80000020 := by
  intro image options
  have positive : 0 < options.memorySize := by decide
  rcases program_begins image positive with ⟨starts, begins, -⟩
  have fits : (∀ seed ∈ options.seeds, 0 ≤ seed.1 ∧ seed.1 + 4 ≤ options.memorySize) ∧
      image.length ≤ options.memorySize := by decide
  rcases Option.isSome_iff_exists.mp (starts.mpr fits) with ⟨machine, started⟩
  have start := (begins machine started).1
  have size : machine.memory.size = 32 := Int.ofNat.inj start.size
  refine ⟨machine, started, ?_, ?_, ?_, ?_, ?_⟩
  · exact (start.bytes 28 (by omega)).trans (by decide)
  · exact (start.bytes 29 (by omega)).trans (by decide)
  · exact (start.bytes 30 (by omega)).trans (by decide)
  · exact (start.bytes 31 (by omega)).trans (by decide)
  · exact (start.entry rfl (by decide) (by decide)).trans (by decide)

end Run

end Arm32
