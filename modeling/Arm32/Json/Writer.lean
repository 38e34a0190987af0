import Arm32.Json
import Arm32.Numeral

namespace Arm32.Json

/-! Writing structured data as text, without blanks. -/

/-! ## Data that can be written -/

mutual

/-- Whether no number is too long to be written. -/
def isWritable : Json → Bool
  | .null | .bool _ | .decimal _ | .text _ => true
  | .number value => decide (Numeral.FitsDecimal value)
  | .list items => areItemsWritable items
  | .object members => areMembersWritable members

def areItemsWritable : List Json → Bool
  | [] => true
  | item :: rest => item.isWritable && areItemsWritable rest

def areMembersWritable : List (String × Json) → Bool
  | [] => true
  | member :: rest => member.2.isWritable && areMembersWritable rest

end

@[simp] theorem isWritable_null : isWritable .null = true := rfl

def escapeCharacter (character : Char) : List Char :=
  if character.toNat = 0x22 then ['\\', character]
  else if character == '\\' then ['\\', '\\']
  else if character.toNat < 0x20 then
    ['\\', 'u'] ++ Numeral.characters { base := 16, width := 4 } character.toNat
  else [character]

/-- Adds a quoted text to what is written so far. -/
def writeText (written content : String) : String :=
  (content.foldl (fun written character => (escapeCharacter character).foldl String.push written)
    (written.push '\x22')).push '\x22'

mutual

/-- Adds a value to what is written so far. -/
def writeValue (written : String) : Json → String
  | .null => written ++ "null"
  | .bool value => written ++ (if value then "true" else "false")
  | .number value => written ++ Numeral.write .decimal value
  | .decimal literal => written ++ literal
  | .text content => writeText written content
  | .list items => (writeItems (written.push '[') true items).push ']'
  | .object members => (writeMembers (written.push '\x7b') true members).push '\x7d'

def writeItems (written : String) (first : Bool) : List Json → String
  | [] => written
  | item :: rest =>
      let separated := if first then written else written.push ','
      writeItems (writeValue separated item) false rest

def writeMembers (written : String) (first : Bool) : List (String × Json) → String
  | [] => written
  | (name, value) :: rest =>
      let separated := if first then written else written.push ','
      writeMembers (writeValue ((writeText separated name).push ':') value) false rest

end

/-- The text of a value. -/
def write (value : Json) : String :=
  writeValue "" value

end Arm32.Json
