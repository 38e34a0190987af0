import Arm32.Proofs.Arithmetic.Logic
import Arm32.Proofs.Bare.Execution
import Arm32.Proofs.Execution.Transfers
import Arm32.Proofs.Running.Setup

namespace Arm32.Bare

/-! Execution in bare numbers and on a machine. Each part of an execution in bare numbers
shows the same part on a machine, and so does the whole: the numbers that are not words yet
are the same on both sides, and what is written is cut down to the same words. -/

/-! ## Numbers -/

theorem signExtend_eq (value : Int) (width : Nat) :
    signExtend value width = (Word.signExtend value width).toInt :=
  emod_eq_toInt _

theorem dataResult_toInt (operator : DataOperator) (first : Word) (operand : Shifter.Output)
    (carryIn : Bool) :
    dataResult operator first.toInt operand carryIn = operator.apply first operand carryIn := by
  cases operator with
  | and => rw [dataResult, Arithmetic.land_toInt, DataOperator.apply]
  | or => rw [dataResult, Arithmetic.lor_toInt, DataOperator.apply]
  | _ => rfl

theorem toInt_sub_four (word : Word) : (word - 4).toInt = (word.toInt - 4) % 0x100000000 := by
  have bound := word.isLt
  have four : (4 : Word).toNat = 4 := rfl
  simp only [Word.toInt, BitVec.toNat_sub, four]
  omega

theorem toInt_eq_iff (word value : Word) : word.toInt = value.toInt ↔ word = value :=
  ⟨Word.toInt_injective, congrArg Word.toInt⟩

theorem textOf_numbers (bytes : List UInt8) :
    String.ofList ((numbers bytes).map fun byte => Char.ofNat byte.toNat) =
      SystemCall.textOf bytes := by
  rw [numbers, List.map_map]
  rfl

namespace Action

variable {α β : Type}

theorem Shows.programCounter {bareNext : Int → Action β} {next : Arm32.Machine → Arm32.Action α}
    {shown : α → β}
    (shows : ∀ machine, Shows (bareNext machine.programCounter.toInt) (next machine) shown) :
    Shows (programCounter >>= bareNext) (get >>= next) shown := by
  intro machine
  rw [EStateM.run_bind, run_programCounter]
  exact shows machine machine

/-! ## Operands -/

theorem shows_shiftBy (kind : ShiftKind) (value : Word) (amount : Int) :
    Shows (shiftBy kind value.toInt amount) (Arm32.Action.shiftBy kind value amount) id :=
  shows_get.bind fun _ => shows_liftMisuse _

theorem shows_shiftedRegister (register : Int) (kind : ShiftKind) (amount : ShiftAmount) :
    Shows (shiftedRegister register kind amount)
      (Arm32.Action.shiftedRegister register kind amount) id := by
  cases amount with
  | immediate amount =>
      refine (shows_getRegister register).bind fun value => .ite Iff.rfl ?_ ?_
      · exact shows_get.bind fun machine => shows_pure _ id
      · exact shows_shiftBy kind value _
  | register amountRegister =>
      exact (shows_getRegister amountRegister).bind fun amount =>
        (shows_getRegister register).bind fun value => shows_shiftBy kind value _

theorem shows_operand (source : Operand) :
    Shows (operand source) (Arm32.Action.operand source) id := by
  cases source with
  | immediate value carry rotation => exact shows_get.bind fun machine => shows_pure _ id
  | register register kind amount => exact shows_shiftedRegister register kind amount

/-! ## Transfers -/

theorem shows_offsetValue (offset : Offset) :
    Shows (offsetValue offset) (Arm32.Action.offsetValue offset) id := by
  cases offset with
  | immediate value => exact shows_pure value id
  | register register kind amount =>
      exact (shows_getRegister register).bind fun value =>
        (shows_shiftBy kind value _).bind fun shifted => shows_pure shifted.value id

/-- The addresses of a transfer by their numbers. -/
def placeOf (place : Transfer.Addresses) : Addresses :=
  ⟨place.access.toInt, place.adjusted.toInt⟩

theorem shows_addresses (transfer : Transfer) :
    Shows (addresses transfer) (Arm32.Action.addresses transfer) placeOf := by
  refine (shows_getRegister transfer.baseRegister).bind fun base =>
    (shows_offsetValue transfer.offset).bind fun offset => ?_
  intro machine
  simp only [id, emod_eq_toInt]
  cases transfer.sign <;> cases transfer.indexing <;> rfl

theorem shows_writeBack (transfer : Transfer) (adjusted : Word) :
    Shows (writeBack transfer adjusted.toInt) (Arm32.Action.writeBack transfer adjusted) id :=
  .ite Iff.rfl (shows_setRegister_word _ adjusted) (shows_pure () id)

theorem shows_checkPair (direction : TransferDirection) (transfer : Transfer) :
    Shows (checkPair direction transfer) (Arm32.Action.checkPair direction transfer) id :=
  .ite Iff.rfl (shows_pure () id) (shows_fail _ id)

/-- What is loaded in one access is extended and cut down to the same word. -/
theorem ofInt_extend {size : LoadSize} {entry : Arm32.LoadAccess}
    (found : size.access = .ok entry) :
    ∃ bareEntry, loadAccess size = .ok bareEntry ∧ bareEntry.width = entry.width ∧
      ∀ value : Nat, Word.ofInt (bareEntry.extend (Int.ofNat value)) = entry.extend value := by
  have signed (value width : Nat) :
      Word.ofInt (signExtend (Int.ofNat value) width) = Word.signExtend value width := by
    rw [signExtend_eq, Word.ofInt_toInt]
    rfl
  cases size with
  | doubleWord => cases found
  | signedByte =>
      cases found
      exact ⟨_, rfl, rfl, fun value => signed value 8⟩
  | signedHalfWord =>
      cases found
      exact ⟨_, rfl, rfl, fun value => signed value 16⟩
  | _ =>
      cases found
      exact ⟨_, rfl, rfl, fun _ => rfl⟩

theorem shows_load (size : LoadSize) (transfer : Transfer) :
    Shows (load size transfer) (Arm32.Action.load size transfer) id := by
  refine .ite Iff.rfl ?_ ?_
  · exact (shows_checkPair .load transfer).bind fun _ =>
      (shows_addresses transfer).bind fun place =>
      (shows_readMemory place.access.toInt 4).bind fun low =>
      (shows_readMemory (place.access.toInt + 4) 4).bind fun high =>
      (shows_writeBack transfer place.adjusted).bind fun _ =>
      (shows_setRegister transfer.valueRegister low).bind fun _ =>
      shows_setRegister (transfer.valueRegister + 1) high
  · refine (shows_addresses transfer).bind fun place => ?_
    cases found : size.access with
    | error misuse =>
        have missing : loadAccess size = .error misuse := by
          cases size <;> cases found
          rfl
        rw [missing]
        exact fun _ => rfl
    | ok entry =>
        rcases ofInt_extend found with ⟨bareEntry, bareFound, width, extend⟩
        rw [bareFound]
        change Shows (readMemory place.access.toInt bareEntry.width >>= _)
          (Arm32.Action.readMemory place.access.toInt entry.width >>= _) id
        rw [width]
        refine (shows_readMemory place.access.toInt entry.width).bind fun value =>
          (shows_writeBack transfer place.adjusted).bind fun _ => ?_
        rw [← extend value]
        exact shows_setRegister transfer.valueRegister _

theorem shows_store (size : StoreSize) (transfer : Transfer) :
    Shows (store size transfer) (Arm32.Action.store size transfer) id := by
  refine .ite Iff.rfl ?_ ?_
  · exact (shows_checkPair .store transfer).bind fun _ =>
      (shows_addresses transfer).bind fun place =>
      (shows_getRegister transfer.valueRegister).bind fun low =>
      (shows_getRegister (transfer.valueRegister + 1)).bind fun high =>
      (shows_writeMemory place.access.toInt 4 low.toInt).bind fun _ =>
      (shows_writeMemory (place.access.toInt + 4) 4 high.toInt).bind fun _ =>
      shows_writeBack transfer place.adjusted
  · exact (shows_addresses transfer).bind fun place =>
      (shows_getRegister transfer.valueRegister).bind fun value =>
      (shows_liftMisuse size.accessWidth).bind fun width =>
      (shows_writeMemory place.access.toInt width value.toInt).bind fun _ =>
      shows_writeBack transfer place.adjusted

/-! ## System calls -/

theorem shows_writeCall : Shows writeCall Arm32.Action.writeCall id := by
  refine (shows_getRegister 0).bind fun descriptor => (shows_getRegister 1).bind fun address =>
    .ite (not_congr (toInt_eq_iff descriptor 1)) ?_ ?_
  · rw [Word.ofInt_toInt]
    exact shows_fail _ id
  · refine shows_get.bind fun machine => .ite Iff.rfl (shows_fail _ id) ?_
    refine shows_get.bind fun machine =>
      (shows_liftFault (machine.memory.readString_toBare address.toInt)).bind fun bytes => ?_
    rw [textOf_numbers]
    exact shows_writeText _

theorem shows_systemCall : Shows systemCall Arm32.Action.systemCall id := by
  refine (shows_getRegister 7).bind fun number => ?_
  have exits : number.toInt = 1 ↔ number = 1 := toInt_eq_iff number 1
  have writes : number.toInt = 4 ↔ number = 4 := toInt_eq_iff number 4
  rw [SystemCall.ofNumber?]
  by_cases isExit : number = 1
  · rw [if_pos isExit, if_pos (exits.mpr isExit)]
    exact shows_halt
  · rw [if_neg isExit, if_neg (mt exits.mp isExit)]
    by_cases isWrite : number = 4
    · rw [if_pos isWrite, if_pos (writes.mpr isWrite)]
      exact shows_writeCall
    · rw [if_neg isWrite, if_neg (mt writes.mp isWrite), Word.ofInt_toInt]
      exact shows_fail _ id

/-! ## Instructions -/

theorem shows_writeResult (destination : Int) (result : DataResult) (setsFlags : Bool) :
    Shows (writeResult destination result setsFlags)
      (Arm32.Action.writeResult destination result setsFlags) id := by
  refine (shows_setRegister destination result.value).bind fun _ => .ite Iff.rfl ?_ ?_
  · exact shows_setFlags _ _ _ _
  · exact shows_pure () id

theorem shows_setProgramCounter_word (word : Word) :
    Shows (setProgramCounter word.toInt) (modify (·.setProgramCounter word)) id := by
  have shows := shows_setProgramCounter word.toInt
  rwa [Word.ofInt_toInt] at shows

theorem shows_branch (offset : Int) (link : Bool) :
    Shows (branch offset link) (Arm32.Action.branch offset link) id := by
  refine .programCounter fun machine => ?_
  rw [← toInt_sub_four]
  have leaves (origin : Word) :
      Shows (if (origin.toInt + offset) % 0x100000000 = origin.toInt then halt
          else setProgramCounter ((origin.toInt + offset) % 0x100000000))
        (if Word.ofInt (origin.toInt + offset) = origin then modify Arm32.Machine.halt
          else modify (·.setProgramCounter (Word.ofInt (origin.toInt + offset)))) id := by
    rw [emod_eq_toInt]
    exact .ite (toInt_eq_iff _ origin) shows_halt (shows_setProgramCounter_word _)
  refine .ite Iff.rfl ?_ (leaves _)
  exact (shows_setRegister_word 14 machine.programCounter).bind fun _ => leaves _

theorem shows_perform (operation : Operation) :
    Shows (perform operation) (Arm32.Action.perform operation) id := by
  cases operation with
  | combine operator destination source second setsFlags =>
      refine (shows_operand second).bind fun second =>
        (shows_getRegister source).bind fun first => shows_get.bind fun machine => ?_
      rw [dataResult_toInt]
      exact shows_writeResult destination _ setsFlags
  | compare source second =>
      exact (shows_operand second).bind fun _ => (shows_getRegister source).bind fun _ =>
        shows_setFlags _ _ _ _
  | move inverted destination source setsFlags =>
      exact (shows_operand source).bind fun _ => shows_writeResult _ _ _
  | moveHalf half destination immediate =>
      cases half with
      | low => exact shows_setRegister destination _
      | high => exact (shows_getRegister destination).bind fun _ =>
          shows_setRegister destination _
  | branch offset link => exact shows_branch offset link
  | branchExchange register =>
      exact (shows_getRegister register).bind fun destination =>
        shows_setProgramCounter_word destination
  | load size transfer => exact shows_load size transfer
  | store size transfer => exact shows_store size transfer
  | supervisorCall immediate => exact shows_systemCall
  | undefined =>
      refine .programCounter fun machine => ?_
      rw [← Word.ofInt_emod, ← toInt_sub_four, Word.ofInt_toInt]
      exact shows_fail _ id

theorem shows_advance :
    Shows (programCounter >>= fun counter => setProgramCounter (counter + 4))
      (modify Arm32.Machine.advance) id := by
  intro machine
  have advanced := shows_setProgramCounter (machine.programCounter.toInt + 4) machine
  rw [Word.ofInt_toInt_add_four] at advanced
  rw [EStateM.run_bind, run_programCounter]
  exact advanced

theorem shows_execute (instruction : Instruction) :
    Shows (execute instruction) (Arm32.Action.execute instruction) id := by
  rw [execute, ← bind_assoc]
  refine shows_advance.bind fun _ => shows_get.bind fun machine => ?_
  exact .ite Iff.rfl (shows_perform instruction.operation) (shows_pure () id)

theorem shows_executeWord (word : Int) :
    Shows (executeWord word) (Arm32.Action.executeWord word) id := by
  rw [executeWord, Arm32.Action.executeWord]
  cases Instruction.decode word with
  | ok instruction => exact shows_execute instruction
  | error failure => exact shows_fail failure id

theorem shows_step : Shows step Arm32.Action.step id :=
  .programCounter fun machine =>
    (shows_readMemory machine.programCounter.toInt 4).bind fun word => shows_executeWord word

/-! ## Images -/

/-- The entry point of an image that has been loaded stands in memory. -/
theorem ofInt_entryPoint (memory : Arm32.Memory) {image : Image} (isElf : image.isElf = true)
    (fits : image.length ≤ memory.size) :
    (memory.setBytes 0 image).read 0x18 4 =
        .ok ((memory.setBytes 0 image).valueAt 0x18 4) ∧
      Word.ofInt ((memory.setBytes 0 image).valueAt 0x18 4) = image.entryPoint := by
  rw [Image.isElf, Bool.and_eq_true, decide_eq_true_eq, Image.entryOffset] at isElf
  have long := isElf.2
  have inside : (memory.setBytes 0 image).Contains 0x18 4 := by
    rw [Memory.Contains, Memory.size_setBytes]
    omega
  have room : 0 + image.length ≤ memory.size := by omega
  have whole := memory.slice_setBytes room
  have entry : (memory.setBytes 0 image).slice 0x18 4 = (image.drop 0x18).take 4 := by
    conv => rhs; rw [← whole]
    rw [Memory.drop_slice _ 0 (by omega), Memory.take_slice _ _ (by omega)]
  refine ⟨if_pos inside, ?_⟩
  rw [Memory.valueAt_eq, entry]
  rfl

theorem run_entryPoint (machine : Arm32.Machine) {value : Nat}
    (found : machine.memory.read 0x18 4 = .ok value) :
    (readMemory 0x18 4 >>= setProgramCounter).run machine.toBare =
      .ok () (machine.setProgramCounter (Word.ofInt value)).toBare := by
  have shows := (shows_readMemory 0x18 4).bind fun value => shows_setProgramCounter value
  rw [shows machine, Arm32.Action.readMemory, EStateM.run_bind, EStateM.run_bind, EStateM.run_get]
  dsimp only
  rw [found]
  rfl

theorem shows_loadImage (image : Image) :
    Shows (loadImage image) (Arm32.Action.loadImage image) fun _ => () := by
  intro machine
  rw [Arm32.Action.run_loadImage, loadImage, EStateM.run_bind, EStateM.run_get]
  dsimp only
  by_cases tooLarge : machine.memory.size < image.length
  · have larger : machine.toBare.memory.size < image.length := Int.ofNat_lt.mpr tooLarge
    rw [if_pos tooLarge, if_pos larger]
    rfl
  · have notLarger : ¬ machine.toBare.memory.size < image.length := mt Int.ofNat_lt.mp tooLarge
    have inside : machine.memory.Contains 0 image.length := by
      simp only [Memory.Contains]
      omega
    have loaded := shows_loadMemory image 0 machine
    rw [Arm32.Action.run_loadMemory, if_pos inside] at loaded
    rw [if_neg tooLarge, if_neg notLarger, EStateM.run_bind, loaded]
    simp only [resultShown, Arm32.Machine.withImage]
    cases isElf : image.isElf with
    | false => rfl
    | true =>
        rcases ofInt_entryPoint machine.memory isElf (by omega) with ⟨found, entry⟩
        rw [← entry]
        exact run_entryPoint _ found

end Action

end Arm32.Bare
