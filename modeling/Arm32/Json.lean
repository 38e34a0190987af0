namespace Arm32

/-! Structured data as requests and answers carry it. Objects keep the order of
their members, and each name occurs once in them. Texts are made of whole
characters, so half of a surrogate pair has no place in them. -/

inductive Json where
  | null
  | bool (value : Bool)
  | number (value : Int)
  /-- A number with a fraction or an exponent, as it is written. -/
  | decimal (literal : String)
  | text (value : String)
  | list (items : List Json)
  | object (members : List (String × Json))
deriving Repr, Inhabited

namespace Json

/-- Sets a member. A new name goes last, and a known one keeps its place. -/
def insertMember (members : List (String × α)) (name : String) (value : α) :
    List (String × α) :=
  if members.any (·.1 == name) then
    members.map fun member => if member.1 == name then (name, value) else member
  else members ++ [(name, value)]

/-- The object of a list of members, of which the last one of a name counts. -/
def ofMembers (members : List (String × Json)) : Json :=
  .object (members.foldl (fun known member => insertMember known member.1 member.2) [])

def member? (name : String) : Json → Option Json
  | .object members => members.lookup name
  | _ => none

def ofOption (encode : α → Json) : Option α → Json
  | some value => encode value
  | none => .null

end Json

end Arm32
