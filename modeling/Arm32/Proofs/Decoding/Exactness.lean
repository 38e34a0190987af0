import Arm32.Proofs.Decoding.Encodings

namespace Arm32

/-! Decoding accepts exactly the words that have a meaning. A pattern leads to an
operation of its encoding, whichever checks come before its own; and an operation
comes from a word with a pattern. As decoding is a function, a word has at most
one pattern. -/

namespace Instruction

open Encoding (Documented)

/-- Decoding finds an operation of the encoding. -/
def Yields (decoded : Except Fault Operation) (encoding : Encoding) : Prop :=
  ∃ operation, decoded = .ok operation ∧ operation.encoding? = some encoding

theorem Yields.unique {decoded : Except Fault Operation} {first second : Encoding}
    (yieldsFirst : Yields decoded first) (yieldsSecond : Yields decoded second) :
    first = second := by
  rcases yieldsFirst with ⟨operation, found, firstEqual⟩
  rcases yieldsSecond with ⟨other, foundOther, secondEqual⟩
  rw [found] at foundOther
  cases foundOther
  rw [firstEqual] at secondEqual
  exact Option.some.inj secondEqual

/-! ## Fields within fields -/

theorem bit_of_class {word : Word} {number : Nat} (classEqual : word.field 25 3 = number) :
    word.bit 25 = (number % 2 == 1) := by
  have inner : word.field 25 1 = word.field 25 3 % 2 := by
    simp only [Word.field, Nat.reduceShiftLeft]
    omega
  rw [Word.bit, inner, classEqual]

/-- A branch exchange has the opcode of a comparison that sets no flags, and
does not look like an extra transfer. -/
theorem fields_of_exchange {word : Word} (exchange : word.field 4 24 = 0x12FFF1) :
    word.field 21 4 = 9 ∧ word.bit 7 = false := by
  simp only [Word.bit, beq_eq_false_iff_ne, Word.field, Nat.reduceShiftLeft] at *
  omega

/-- A wide move has the opcode of a comparison, and sets no flags. -/
theorem opcode_of_wideMove {word : Word} (wide : word.field 23 2 = 2 ∧ word.field 20 2 = 0) :
    (word.field 21 4 = 8 ∨ word.field 21 4 = 0xA) ∧ word.bit 20 = false := by
  simp only [Word.bit, beq_eq_false_iff_ne, Word.field, Nat.reduceShiftLeft] at *
  omega

theorem not_writing_of_exchange {word : Word} (exchange : word.field 4 24 = 0x12FFF1) :
    word.field 21 4 ∉ writingOpcodes := by
  rw [(fields_of_exchange exchange).1]
  decide

theorem not_writing_of_wideMove {word : Word}
    (wide : word.field 23 2 = 2 ∧ word.field 20 2 = 0) : word.field 21 4 ∉ writingOpcodes := by
  rcases (opcode_of_wideMove wide).1 with equal | equal <;> rw [equal] <;> decide

theorem not_comparing_of_exchange {word : Word} (exchange : word.field 4 24 = 0x12FFF1) :
    ¬ (word.field 21 4 = 0xA ∧ word.bit 20 = true) := by
  rintro ⟨opcode, -⟩
  rw [(fields_of_exchange exchange).1] at opcode
  exact absurd opcode (by decide)

theorem not_comparing_of_wideMove {word : Word}
    (wide : word.field 23 2 = 2 ∧ word.field 20 2 = 0) :
    ¬ (word.field 21 4 = 0xA ∧ word.bit 20 = true) := by
  rintro ⟨-, setsFlags⟩
  rw [(opcode_of_wideMove wide).2] at setsFlags
  exact Bool.noConfusion setsFlags

/-! ## Families -/

theorem dataProcessing_yields_data {word : Word} (writes : word.field 21 4 ∈ writingOpcodes) :
    Yields (dataProcessing word) (if word.bit 25 then .immediateData else .registerData) := by
  rcases dataProcessing_of_writing writes with ⟨operation, found, shape⟩
  exact ⟨operation, found, shape.encoding_eq⟩

theorem dataProcessing_yields_comparison {word : Word}
    (compares : word.field 21 4 = 0xA ∧ word.bit 20 = true) :
    Yields (dataProcessing word)
      (if word.bit 25 then .immediateComparison else .registerComparison) := by
  refine ⟨_, dataProcessing_of_comparing compares.1 compares.2, ?_⟩
  rw [Operation.encoding?, isImmediate_operandOf]

theorem extraTransfer_yields {word : Word} (typed : word.field 5 2 ≠ 0) :
    Yields (extraTransfer word) .extraTransfer := by
  rcases extraTransfer_of_typed typed with ⟨operation, found, shape⟩
  exact ⟨operation, found, shape.encoding_eq⟩

/-! ## Classes -/

theorem registerClass_of_exchange {word : Word} (exchange : word.field 4 24 = 0x12FFF1) :
    registerClass word = .ok (.branchExchange (word.field 0 4)) := by
  rw [registerClass, if_pos exchange]

theorem registerClass_of_extra {word : Word} (extra : word.bit 7 = true ∧ word.bit 4 = true) :
    registerClass word = extraTransfer word := by
  have notExchange : word.field 4 24 ≠ 0x12FFF1 := by
    intro exchange
    rw [(fields_of_exchange exchange).2] at extra
    exact Bool.noConfusion extra.1
  rw [registerClass, if_neg notExchange, extra.1, extra.2]
  rfl

theorem registerClass_of_plain {word : Word} (notExchange : word.field 4 24 ≠ 0x12FFF1)
    (plain : ¬ (word.bit 7 = true ∧ word.bit 4 = true)) :
    registerClass word = dataProcessing word := by
  rw [← Bool.and_eq_true] at plain
  rw [registerClass, if_neg notExchange, if_neg plain]

theorem immediateClass_of_wideMove {word : Word}
    (wide : word.field 23 2 = 2 ∧ word.field 20 2 = 0) :
    immediateClass word = .ok (wideMove word) := by
  rw [immediateClass, if_pos wide]

theorem immediateClass_of_plain {word : Word}
    (notWide : ¬ (word.field 23 2 = 2 ∧ word.field 20 2 = 0)) :
    immediateClass word = dataProcessing word := by
  rw [immediateClass, if_neg notWide]

theorem operationOf_registerClass {word : Word} (classEqual : word.field 25 3 = 0) :
    operationOf word = registerClass word := by
  unfold operationOf
  rw [classEqual]
  rfl

theorem operationOf_immediateClass {word : Word} (classEqual : word.field 25 3 = 1) :
    operationOf word = immediateClass word := by
  unfold operationOf
  rw [classEqual]
  rfl

theorem operationOf_branch {word : Word} (classEqual : word.field 25 3 = 5) :
    operationOf word = .ok (branch word) := by
  unfold operationOf
  rw [classEqual]
  rfl

/-! ## Encodings -/

/-- An encoding leads to an operation of its own, whichever checks come first. -/
theorem operationOf_yields {word : Word} {encoding : Encoding}
    (fields : encoding.HasFields word) : Yields (operationOf word) encoding := by
  cases encoding with
  | branch => exact ⟨branch word, operationOf_branch fields, rfl⟩
  | wideMove =>
      rcases fields with ⟨classEqual, wide⟩
      rw [operationOf_immediateClass classEqual, immediateClass_of_wideMove wide]
      exact ⟨wideMove word, rfl, rfl⟩
  | immediateData =>
      rcases fields with ⟨classEqual, writes⟩
      -- Wide moves are asked for first, but have none of these opcodes.
      have notWide := fun wide => not_writing_of_wideMove wide writes
      have yields := dataProcessing_yields_data writes
      rw [bit_of_class classEqual] at yields
      rw [operationOf_immediateClass classEqual, immediateClass_of_plain notWide]
      exact yields
  | immediateComparison =>
      rcases fields with ⟨classEqual, compares⟩
      have notWide := fun wide => not_comparing_of_wideMove wide compares
      have yields := dataProcessing_yields_comparison compares
      rw [bit_of_class classEqual] at yields
      rw [operationOf_immediateClass classEqual, immediateClass_of_plain notWide]
      exact yields
  | branchExchange =>
      rcases fields with ⟨classEqual, exchange⟩
      rw [operationOf_registerClass classEqual, registerClass_of_exchange exchange]
      exact ⟨.branchExchange (word.field 0 4), rfl, rfl⟩
  | extraTransfer =>
      rcases fields with ⟨classEqual, extra, typed⟩
      rw [operationOf_registerClass classEqual, registerClass_of_extra extra]
      exact extraTransfer_yields typed
  | registerData =>
      rcases fields with ⟨classEqual, plain, writes⟩
      -- Branch exchanges are asked for first too, and have none of them either.
      have notExchange := fun exchange => not_writing_of_exchange exchange writes
      have yields := dataProcessing_yields_data writes
      rw [bit_of_class classEqual] at yields
      rw [operationOf_registerClass classEqual, registerClass_of_plain notExchange plain]
      exact yields
  | registerComparison =>
      rcases fields with ⟨classEqual, plain, compares⟩
      have notExchange := fun exchange => not_comparing_of_exchange exchange compares
      have yields := dataProcessing_yields_comparison compares
      rw [bit_of_class classEqual] at yields
      rw [operationOf_registerClass classEqual, registerClass_of_plain notExchange plain]
      exact yields
  | immediateTransfer =>
      have found : operationOf word = .ok (transfer word) := by
        unfold operationOf
        rw [fields]
        rfl
      refine ⟨transfer word, found, ?_⟩
      rw [encoding_transfer, bit_of_class fields]
      rfl
  | registerTransfer =>
      rcases fields with ⟨classEqual, clear⟩
      have found : operationOf word = .ok (transfer word) := by
        unfold operationOf
        rw [classEqual, clear]
        rfl
      refine ⟨transfer word, found, ?_⟩
      rw [encoding_transfer, bit_of_class classEqual]
      rfl
  | supervisorCall =>
      rcases fields with ⟨classEqual, set⟩
      have found : operationOf word = .ok (.supervisorCall (word.field 0 24)) := by
        unfold operationOf
        rw [classEqual, set]
        rfl
      exact ⟨.supervisorCall (word.field 0 24), found, rfl⟩

/-! ## From an operation to a pattern -/

theorem hasFields_of_registerClass {word : Word} {operation : Operation}
    (classEqual : word.field 25 3 = 0) (decoded : registerClass word = .ok operation) :
    ∃ encoding : Encoding, encoding.HasFields word := by
  by_cases exchange : word.field 4 24 = 0x12FFF1
  · exact ⟨.branchExchange, classEqual, exchange⟩
  · by_cases extra : word.bit 7 = true ∧ word.bit 4 = true
    · rw [registerClass_of_extra extra] at decoded
      exact ⟨.extraTransfer, classEqual, extra, (extraTransfer_cases decoded).1⟩
    · rw [registerClass_of_plain exchange extra] at decoded
      rcases dataProcessing_cases decoded with ⟨writes, -⟩ | ⟨opcode, setsFlags, -⟩
      · exact ⟨.registerData, classEqual, extra, writes⟩
      · exact ⟨.registerComparison, classEqual, extra, opcode, setsFlags⟩

theorem hasFields_of_immediateClass {word : Word} {operation : Operation}
    (classEqual : word.field 25 3 = 1) (decoded : immediateClass word = .ok operation) :
    ∃ encoding : Encoding, encoding.HasFields word := by
  by_cases wide : word.field 23 2 = 2 ∧ word.field 20 2 = 0
  · exact ⟨.wideMove, classEqual, wide⟩
  · rw [immediateClass_of_plain wide] at decoded
    rcases dataProcessing_cases decoded with ⟨writes, -⟩ | ⟨opcode, setsFlags, -⟩
    · exact ⟨.immediateData, classEqual, writes⟩
    · exact ⟨.immediateComparison, classEqual, opcode, setsFlags⟩

theorem hasFields_of_operationOf {word : Word} {operation : Operation}
    (decoded : operationOf word = .ok operation) :
    ∃ encoding : Encoding, encoding.HasFields word := by
  unfold operationOf at decoded
  split at decoded
  case h_1 classEqual => exact hasFields_of_registerClass classEqual decoded
  case h_2 classEqual => exact hasFields_of_immediateClass classEqual decoded
  case h_3 classEqual => exact ⟨.immediateTransfer, classEqual⟩
  case h_4 classEqual =>
      cases media : word.bit 4 with
      | true =>
          rw [media] at decoded
          cases decoded
      | false => exact ⟨.registerTransfer, classEqual, media⟩
  case h_5 classEqual => exact ⟨.branch, classEqual⟩
  case h_6 classEqual =>
      cases call : word.bit 24 with
      | true => exact ⟨.supervisorCall, classEqual, call⟩
      | false =>
          rw [call] at decoded
          cases decoded
  case h_7 => cases decoded

/-- Only the encoding of branches has branches in it. -/
theorem eq_branch_of_operationOf {word : Word} {offset : Int} {link : Bool}
    (decoded : operationOf word = .ok (.branch offset link)) :
    Operation.branch offset link = branch word := by
  rcases hasFields_of_operationOf decoded with ⟨encoding, fields⟩
  rcases operationOf_yields fields with ⟨operation, found, encoded⟩
  rw [decoded] at found
  cases found
  cases encoded
  rw [operationOf_branch fields] at decoded
  exact (Except.ok.inj decoded).symm

/-! ## Refusals -/

/-- A refusal of a word is of the kind of decoding and names the word. -/
def Refuses (word : Word) (fault : Fault) : Prop :=
  fault.kind = .decoding ∧ fault.word? = some word

theorem dataProcessing_refuses {word : Word} {fault : Fault}
    (refused : dataProcessing word = .error fault) : Refuses word fault := by
  by_cases writes : word.field 21 4 ∈ writingOpcodes
  · rcases dataProcessing_of_writing writes with ⟨operation, found, -⟩
    rw [found] at refused
    cases refused
  · by_cases compares : word.field 21 4 = 0xA ∧ word.bit 20 = true
    · rw [dataProcessing_of_comparing compares.1 compares.2] at refused
      cases refused
    · rw [dataProcessing_of_unknown writes compares] at refused
      cases refused
      exact ⟨rfl, rfl⟩

theorem extraTransfer_refuses {word : Word} {fault : Fault}
    (refused : extraTransfer word = .error fault) : Refuses word fault := by
  by_cases untyped : word.field 5 2 = 0
  · rw [extraTransfer_of_untyped untyped] at refused
    cases refused
    exact ⟨rfl, rfl⟩
  · rcases extraTransfer_of_typed untyped with ⟨operation, found, -⟩
    rw [found] at refused
    cases refused

theorem operationOf_refuses {word : Word} {fault : Fault}
    (refused : operationOf word = .error fault) : Refuses word fault := by
  unfold operationOf registerClass immediateClass at refused
  split at refused
  · split at refused
    · cases refused
    · split at refused
      · exact extraTransfer_refuses refused
      · exact dataProcessing_refuses refused
  · split at refused
    · cases refused
    · exact dataProcessing_refuses refused
  · cases refused
  · split at refused
    · cases refused
      exact ⟨rfl, rfl⟩
    · cases refused
  · cases refused
  · split at refused
    · cases refused
    · cases refused
      exact ⟨rfl, rfl⟩
  · cases refused
    exact ⟨rfl, rfl⟩

/-! ## Words -/

theorem conditionOf_ok_iff (word : Word) :
    (∃ condition, conditionOf word = .ok condition) ↔ word.extractLsb 31 28 ≠ 0b1111 := by
  have bound : word.field 28 4 < 16 := word.field_lt 28 4
  -- Of the sixteen codes only the last one names no condition.
  have codes : ∀ code < 16, (Condition.ofCode? code).isSome = true ↔ code ≠ 15 := by decide
  rw [ne_eq, word.extractLsb_eq_iff]
  change _ ↔ word.field 28 4 ≠ 15
  rw [← codes (word.field 28 4) bound, Option.isSome_iff_exists, conditionOf]
  cases Condition.ofCode? (word.field 28 4) with
  | none => simp
  | some condition => simp

theorem conditionOf_refuses {word : Word} {fault : Fault}
    (refused : conditionOf word = .error fault) : Refuses word fault := by
  unfold conditionOf at refused
  split at refused
  · cases refused
  · cases refused
    exact ⟨rfl, rfl⟩

theorem operationOf_ok_iff (word : Word) :
    (∃ operation, operationOf word = .ok operation) ↔
      ∃ encoding : Encoding, encoding.Matches word := by
  constructor
  · rintro ⟨operation, decoded⟩
    rcases hasFields_of_operationOf decoded with ⟨encoding, fields⟩
    exact ⟨encoding, (encoding.matches_iff_hasFields word).mpr fields⟩
  · rintro ⟨encoding, matched⟩
    rcases operationOf_yields ((encoding.matches_iff_hasFields word).mp matched) with
      ⟨operation, decoded, -⟩
    exact ⟨operation, decoded⟩

theorem ofWord_ok_iff (word : Word) :
    (∃ instruction, ofWord word = .ok instruction) ↔ Documented word := by
  rw [Encoding.Documented, ← conditionOf_ok_iff, ← operationOf_ok_iff]
  constructor
  · rintro ⟨instruction, decoded⟩
    rcases ofWord_eq_ok.mp decoded with ⟨condition, operation⟩
    exact ⟨⟨_, condition⟩, ⟨_, operation⟩⟩
  · rintro ⟨⟨condition, conditionEqual⟩, ⟨operation, operationEqual⟩⟩
    exact ⟨⟨condition, operation⟩, ofWord_eq_ok.mpr ⟨conditionEqual, operationEqual⟩⟩

theorem ofWord_refuses {word : Word} {fault : Fault}
    (refused : ofWord word = .error fault) : Refuses word fault := by
  unfold ofWord at refused
  cases condition : conditionOf word with
  | error cause =>
      rw [condition] at refused
      cases refused
      exact conditionOf_refuses condition
  | ok value =>
      rw [condition] at refused
      cases operation : operationOf word with
      | error cause =>
          rw [operation] at refused
          cases refused
          exact operationOf_refuses operation
      | ok value =>
          rw [operation] at refused
          cases refused

/-! ## Integers -/

theorem matches_unique {word : Word} {first second : Encoding} (matchesFirst : first.Matches word)
    (matchesSecond : second.Matches word) : first = second :=
  (operationOf_yields ((first.matches_iff_hasFields word).mp matchesFirst)).unique
    (operationOf_yields ((second.matches_iff_hasFields word).mp matchesSecond))

theorem encoding_of_ofWord {word : Word} {instruction : Instruction}
    (decoded : ofWord word = .ok instruction) :
    ∃ encoding : Encoding, encoding.Matches word ∧
      instruction.operation.encoding? = some encoding := by
  have found := (ofWord_eq_ok.mp decoded).2
  rcases hasFields_of_operationOf found with ⟨encoding, fields⟩
  rcases operationOf_yields fields with ⟨operation, foundAgain, shape⟩
  rw [found] at foundAgain
  cases foundAgain
  exact ⟨encoding, (encoding.matches_iff_hasFields word).mpr fields, shape⟩

/-- An integer that is refused is refused by a fault, unless it is no word and has too many
figures to be shown in the message. -/
theorem fault_of_decode_iff (value : Int) :
    (∃ fault, decode value = .error (.fault fault)) ↔
      Numeral.FitsDecimal value ∧ ∀ instruction, decode value ≠ .ok instruction := by
  unfold decode
  by_cases inRange : 0 ≤ value ∧ value < 0x100000000
  · rw [if_pos inRange, and_iff_right (Numeral.fitsDecimal_of_word inRange.1 inRange.2)]
    cases ofWord (.ofInt value) <;> simp
  · rw [if_neg inRange]
    by_cases fits : Numeral.FitsDecimal value
    · rw [Failure.naming_of_fits fits]
      simp [fits]
    · rw [Failure.naming_of_not_fits fits]
      simp [fits]

theorem misuse_of_decode_iff {value : Int} {misuse : Misuse} :
    decode value = .error (.misuse misuse) ↔
      misuse = .numeralTooLong ∧ ¬ Numeral.FitsDecimal value := by
  unfold decode
  by_cases inRange : 0 ≤ value ∧ value < 0x100000000
  · have fits := Numeral.fitsDecimal_of_word inRange.1 inRange.2
    rw [if_pos inRange]
    simp [fits]
  · rw [if_neg inRange]
    by_cases fits : Numeral.FitsDecimal value
    · rw [Failure.naming_of_fits fits]
      simp [fits]
    · rw [Failure.naming_of_not_fits fits]
      simp [fits, eq_comm]

theorem kind_and_word_of_decode {value : Int} {fault : Fault}
    (refused : decode value = .error (.fault fault)) :
    fault.kind = .decoding ∧
      fault.word?.map Word.toInt =
        if 0 ≤ value ∧ value < 0x100000000 then some value else none := by
  unfold decode at refused
  by_cases inRange : 0 ≤ value ∧ value < 0x100000000
  · have sameValue : (Word.ofInt value).toInt = value := by
      have reduced := Word.toNat_ofInt value
      simp only [Word.toInt]
      omega
    rw [if_pos inRange] at refused ⊢
    cases read : ofWord (.ofInt value) with
    | ok instruction =>
        rw [read] at refused
        cases refused
    | error cause =>
        rw [read] at refused
        cases refused
        rcases ofWord_refuses read with ⟨kind, carried⟩
        rw [carried, Option.map_some, sameValue]
        exact ⟨kind, rfl⟩
  · rw [if_neg inRange] at refused ⊢
    by_cases fits : Numeral.FitsDecimal value
    · rw [Failure.naming_of_fits fits] at refused
      cases refused
      exact ⟨rfl, rfl⟩
    · rw [Failure.naming_of_not_fits fits] at refused
      cases refused

/-- Decoding accepts exactly the integers that are words with a meaning. It
refuses every other one by a fault of its own kind, which names the integer if
that is a word at all; only an integer with too many figures for the message of that
fault ends in a misuse instead. No word has two encodings, and what an accepted word is
decoded to belongs to its one encoding. -/
theorem decode_exact (value : Int) :
    ((∃ instruction, decode value = .ok instruction) ↔
        (0 ≤ value ∧ value < 0x100000000) ∧ Documented (.ofInt value)) ∧
      ((∃ fault, decode value = .error (.fault fault)) ↔
        Numeral.FitsDecimal value ∧ ∀ instruction, decode value ≠ .ok instruction) ∧
      (∀ misuse, decode value = .error (.misuse misuse) ↔
        misuse = .numeralTooLong ∧ ¬ Numeral.FitsDecimal value) ∧
      (∀ fault, decode value = .error (.fault fault) →
        fault.kind = .decoding ∧
          fault.word?.map Word.toInt =
            if 0 ≤ value ∧ value < 0x100000000 then some value else none) ∧
      (∀ first second : Encoding, first.Matches (.ofInt value) → second.Matches (.ofInt value) →
        first = second) ∧
      ∀ instruction, decode value = .ok instruction →
        ∃ encoding : Encoding, encoding.Matches (.ofInt value) ∧
          instruction.operation.encoding? = some encoding := by
  refine ⟨?_, fault_of_decode_iff value, fun _ => misuse_of_decode_iff,
    fun _ => kind_and_word_of_decode, fun _ _ => matches_unique, ?_⟩
  · simp only [decode_eq_ok_iff, exists_and_left, ofWord_ok_iff]
  · intro instruction accepted
    exact encoding_of_ofWord (decode_eq_ok_iff.mp accepted).2

/-- The least integer that is refused without a fault. -/
theorem decode_powTen_refuses_without_fault :
    ¬ (0 ≤ (Nat.pow 10 4300 : Nat) ∧ ((Nat.pow 10 4300 : Nat) : Int) < 0x100000000) ∧
      decode (Nat.pow 10 4300 : Nat) = .error (.misuse .numeralTooLong) ∧
      ¬ ∃ fault, decode (Nat.pow 10 4300 : Nat) = .error (.fault fault) := by
  have tooMany : Numeral.maximalDecimalFigures ≤ 4300 := by decide
  -- The power is never worked out.
  generalize 4300 = figures at tooMany ⊢
  have tooLong := (Numeral.not_fitsDecimal_pow tooMany).1
  refine ⟨?_, misuse_of_decode_iff.mpr ⟨rfl, tooLong⟩, ?_⟩
  · intro inRange
    exact tooLong (Numeral.fitsDecimal_of_word (Int.natCast_nonneg _) inRange.2)
  · rw [fault_of_decode_iff]
    exact fun refused => tooLong refused.1

end Instruction

end Arm32
