import Arm32.Assembly
import Arm32.Proofs.Text.Lexemes

namespace Arm32.Assembly

/-! Titles. A line opens with a mnemonic, a letter if the flags are set and the
letters of a condition, with nothing in between. A title can be read back all
the same: no two of them run together into the same letters. -/

/-- What an instruction does, apart from its arguments. -/
inductive Heading where
  | combine (operator : DataOperator) (setsFlags : Bool)
  | compare
  | move (inverted setsFlags : Bool)
  | moveHalf (half : Half)
  | branch (link : Bool)
  | branchExchange
  | load (size : LoadSize)
  | store (size : StoreSize)
  | supervisorCall
deriving DecidableEq, Repr

namespace Heading

def mnemonic : Heading → String
  | .combine operator _ => operatorMnemonic operator
  | .compare => "CMP"
  | .move inverted _ => if inverted then "MVN" else "MOV"
  | .moveHalf .low => "MOVW"
  | .moveHalf .high => "MOVT"
  | .branch link => if link then "BL" else "B"
  | .branchExchange => "BX"
  | .load size => loadMnemonic size
  | .store size => storeMnemonic size
  | .supervisorCall => "SVC"

def setsFlags : Heading → Bool
  | .combine _ setsFlags | .move _ setsFlags => setsFlags
  | .compare | .moveHalf _ | .branch _ | .branchExchange | .load _ | .store _
  | .supervisorCall => false

/-- The letters in front of the condition's. -/
def letters (heading : Heading) : List Char :=
  heading.mnemonic.toList ++ if heading.setsFlags then ['S'] else []

def all : List Heading :=
  [DataOperator.add, .addWithCarry, .subtract, .and, .or].flatMap
      (fun operator => [.combine operator false, .combine operator true]) ++
    [.compare, .move false false, .move false true, .move true false, .move true true,
     .moveHalf .low, .moveHalf .high, .branch false, .branch true, .branchExchange,
     .supervisorCall] ++
    [LoadSize.word, .byte, .doubleWord, .unsignedHalfWord, .signedByte, .signedHalfWord].map load ++
    [StoreSize.word, .byte, .doubleWord, .halfWord].map store

theorem mem_all (heading : Heading) : heading ∈ all := by
  cases heading with
  | combine operator setsFlags => cases operator <;> cases setsFlags <;> decide
  | compare => decide
  | move inverted setsFlags => cases inverted <;> cases setsFlags <;> decide
  | moveHalf half => cases half <;> decide
  | branch link => cases link <;> decide
  | branchExchange => decide
  | load size => cases size <;> decide
  | store size => cases size <;> decide
  | supervisorCall => decide

def ofLetters? (letters : List Char) : Option Heading :=
  all.find? fun heading => heading.letters = letters

theorem ofLetters?_letters (heading : Heading) : ofLetters? heading.letters = some heading := by
  have every : ∀ heading ∈ all, ofLetters? heading.letters = some heading := by decide +kernel
  exact every heading heading.mem_all

theorem letters_isWord (heading : Heading) : IsWord heading.letters := by
  have every : ∀ heading ∈ all, IsWord heading.letters := by decide +kernel
  exact every heading heading.mem_all

end Heading

def conditionOfLetters? (letters : List Char) : Option Condition :=
  Condition.all.find? fun condition => condition.suffix.toList = letters

theorem conditionOfLetters?_suffix (condition : Condition) :
    conditionOfLetters? condition.suffix.toList = some condition := by
  cases condition <;> decide

theorem length_suffix {condition : Condition} (limited : condition ≠ .always) :
    condition.suffix.toList.length = 2 := by
  cases condition with
  | always => contradiction
  | _ => decide

def titleLetters (heading : Heading) (condition : Condition) : List Char :=
  heading.letters ++ condition.suffix.toList

theorem titleLetters_isWord (heading : Heading) (condition : Condition) :
    IsWord (titleLetters heading condition) := by
  refine heading.letters_isWord.append ?_
  cases condition <;> decide

/-- The heading and the condition that a title ends in, two letters long. -/
def readLimited (letters : List Char) : Option (Heading × Condition) := do
  let (front, back) := letters.splitAt (letters.length - 2)
  return (← Heading.ofLetters? front, ← conditionOfLetters? back)

/-- Reads a title. Its last two letters are those of a condition if what stands
before them is a heading. -/
def readTitle (letters : List Char) : Option (Heading × Condition) :=
  (readLimited letters).or ((Heading.ofLetters? letters).map (·, .always))

theorem readLimited_letters (heading : Heading) : readLimited heading.letters = none := by
  have every : ∀ heading ∈ Heading.all, readLimited heading.letters = none := by decide +kernel
  exact every heading heading.mem_all

theorem readTitle_titleLetters (heading : Heading) (condition : Condition) :
    readTitle (titleLetters heading condition) = some (heading, condition) := by
  by_cases always : condition = .always
  case pos =>
    have plain : titleLetters heading condition = heading.letters := by
      subst always
      exact List.append_nil _
    rw [plain, readTitle, readLimited_letters, Heading.ofLetters?_letters, always]
    rfl
  case neg =>
    have front : (titleLetters heading condition).length - 2 = heading.letters.length := by
      simp only [titleLetters, List.length_append, length_suffix always]
      omega
    have limited : readLimited (titleLetters heading condition) = some (heading, condition) := by
      rw [readLimited, front, titleLetters, List.splitAt_eq, List.take_left, List.drop_left]
      simp [Heading.ofLetters?_letters, conditionOfLetters?_suffix]
    rw [readTitle, limited]
    rfl

end Arm32.Assembly
