import Arm32.Json

namespace Arm32.Service

/-! What can be wrong with a request, and where. -/

inductive Place where
  | member (name : String)
  | item (index : Nat)
deriving DecidableEq, Repr

inductive ProblemKind where
  | missing
  | notText
  | notInteger
  | fractional
  | unreadableInteger
  | integerTooLong
  | notBoolean
  | unreadableBoolean
  | notList
  | notDictionary
  | notObject
  | tooSmall
  | tooLarge
deriving DecidableEq, Repr

def ProblemKind.name : ProblemKind → String
  | .missing => "missing"
  | .notText => "string_type"
  | .notInteger => "int_type"
  | .fractional => "int_from_float"
  | .unreadableInteger => "int_parsing"
  | .integerTooLong => "int_parsing_size"
  | .notBoolean => "bool_type"
  | .unreadableBoolean => "bool_parsing"
  | .notList => "list_type"
  | .notDictionary => "dict_type"
  | .notObject => "model_attributes_type"
  | .tooSmall => "greater_than_equal"
  | .tooLarge => "less_than_equal"

structure Problem where
  place : List Place
  kind : ProblemKind
deriving DecidableEq, Repr

/-- A value that was read, together with everything that is wrong with its data.
The value counts only if nothing is wrong. -/
structure Checked (α : Type) where
  value : α
  problems : List Problem := []
deriving Repr

namespace Checked

def refuse (fallback : α) (place : List Place) (kind : ProblemKind) : Checked α :=
  ⟨fallback, [⟨place, kind⟩]⟩

end Checked

def encodePlace : Place → Json
  | .member name => .text name
  | .item index => .number index

def encodeProblem (problem : Problem) : Json :=
  .object [
    ("loc", .list (problem.place.map encodePlace)),
    ("type", .text problem.kind.name)]

end Arm32.Service
