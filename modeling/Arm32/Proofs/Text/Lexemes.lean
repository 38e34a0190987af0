namespace Arm32

/-! Lexemes. A text is cut into words, the longest runs of letters and figures,
and marks, the characters around them. -/

inductive Lexeme where
  | word (letters : List Char)
  | mark (character : Char)
deriving DecidableEq, Repr

/-- A text that is one word. -/
def IsWord (letters : List Char) : Prop :=
  letters ≠ [] ∧ letters.all Char.isAlphanum = true

instance (letters : List Char) : Decidable (IsWord letters) :=
  inferInstanceAs (Decidable (_ ∧ _))

theorem IsWord.append {front back : List Char} (first : IsWord front)
    (others : back.all Char.isAlphanum = true) : IsWord (front ++ back) := by
  refine ⟨List.append_ne_nil_of_left_ne_nil first.1 back, ?_⟩
  rw [List.all_append, first.2, others]
  rfl

namespace Lexeme

/-- The lexemes of a text that has one more character in front. -/
def attach (character : Char) (lexemes : List Lexeme) : List Lexeme :=
  if character.isAlphanum then
    match lexemes with
    | .word letters :: rest => .word (character :: letters) :: rest
    | rest => .word [character] :: rest
  else .mark character :: lexemes

def cut (text : List Char) : List Lexeme :=
  text.foldr attach []

/-- Text that does not go on with a word. -/
def Apart (text : List Char) : Prop :=
  ∀ character ∈ text.head?, character.isAlphanum = false

@[simp] theorem apart_cons {character : Char} {text : List Char} :
    Apart (character :: text) ↔ character.isAlphanum = false := by
  simp [Apart]

@[simp] theorem cut_nil : cut [] = [] := rfl

@[simp] theorem cut_mark {character : Char} (text : List Char)
    (notLetter : character.isAlphanum = false) :
    cut (character :: text) = .mark character :: cut text := by
  simp [cut, attach, notLetter]

theorem Apart.head_not_word {text : List Char} (apart : Apart text) (letters : List Char)
    (rest : List Lexeme) : cut text ≠ .word letters :: rest := by
  cases text with
  | nil => simp
  | cons character text => simp [apart_cons.mp apart]

/-- A text can be cut in two where its second part does not go on with a word. -/
@[simp] theorem cut_append (front : List Char) {back : List Char} (apart : Apart back) :
    cut (front ++ back) = cut front ++ cut back := by
  induction front with
  | nil => rfl
  | cons character front together =>
      change attach character (cut (front ++ back)) = attach character (cut front) ++ cut back
      rw [together]
      cases cut front with
      | nil =>
          simp only [List.nil_append, attach]
          split
          · split
            · exact absurd ‹_› (apart.head_not_word _ _)
            · rfl
          · rfl
      | cons lexeme lexemes =>
          simp only [List.cons_append, attach]
          split
          · cases lexeme <;> rfl
          · rfl

theorem cut_isWord {letters : List Char} (isWord : IsWord letters) :
    cut letters = [.word letters] := by
  rcases isWord with ⟨nonempty, allLetters⟩
  induction letters with
  | nil => contradiction
  | cons letter letters whole =>
      rw [List.all_cons, Bool.and_eq_true] at allLetters
      rcases allLetters with ⟨isLetter, othersLetters⟩
      change attach letter (cut letters) = _
      cases letters with
      | nil => simp [attach, isLetter]
      | cons second letters =>
          rw [whole (by simp) othersLetters]
          simp [attach, isLetter]

example : cut "r1, lsl #3".toList =
    [.word "r1".toList, .mark ',', .mark ' ', .word "lsl".toList, .mark ' ', .mark '#',
      .word "3".toList] := by decide

end Lexeme

end Arm32
