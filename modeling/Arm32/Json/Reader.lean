import Arm32.Json

namespace Arm32.Json

/-! Reading structured data. The readers take what is left of the text and give
back what they leave of it; a bound on the number of nested steps, which the
length of the text provides, makes them end. -/

def isBlank (character : Char) : Bool :=
  character == ' ' || character == '\t' || character == '\n' || character == '\r'

def skipBlanks : List Char → List Char
  | character :: rest => if isBlank character then skipBlanks rest else character :: rest
  | [] => []

/-! ## Texts -/

def hexadecimalDigit? (character : Char) : Option Nat :=
  if '0' ≤ character && character ≤ '9' then some (character.toNat - '0'.toNat)
  else if 'a' ≤ character && character ≤ 'f' then some (character.toNat - 'a'.toNat + 10)
  else if 'A' ≤ character && character ≤ 'F' then some (character.toNat - 'A'.toNat + 10)
  else none

/-- Four hexadecimal digits, the unit of an escape. -/
def readUnit? : List Char → Option (Nat × List Char)
  | first :: second :: third :: fourth :: rest => do
      let first ← hexadecimalDigit? first
      let second ← hexadecimalDigit? second
      let third ← hexadecimalDigit? third
      let fourth ← hexadecimalDigit? fourth
      return (0x1000 * first + 0x100 * second + 0x10 * third + fourth, rest)
  | _ => none

/-- The character that one or two escaped units stand for. -/
def readEscapedUnits? (source : List Char) : Option (Char × List Char) := do
  let (high, rest) ← readUnit? source
  match rest with
  | '\\' :: 'u' :: more =>
      match readUnit? more with
      | some (low, final) =>
          if 0xD800 ≤ high && high < 0xDC00 && 0xDC00 ≤ low && low < 0xE000 then
            return (Char.ofNat (0x10000 + 0x400 * (high - 0xD800) + (low - 0xDC00)), final)
          else return (Char.ofNat high, rest)
      | none => none
  | _ => return (Char.ofNat high, rest)

def simpleEscape? (character : Char) : Option Char :=
  match character with
  | '\x22' => some '\x22'
  | '\\' => some '\\'
  | '/' => some '/'
  | 'b' => some (Char.ofNat 8)
  | 'f' => some (Char.ofNat 12)
  | 'n' => some '\n'
  | 'r' => some '\r'
  | 't' => some '\t'
  | _ => none

/-- The rest of a text whose opening quote has been read. -/
def readText? : (bound : Nat) → (read : String) → List Char → Option (String × List Char)
  | 0, _, _ => none
  | _, _, [] => none
  | bound + 1, read, character :: rest =>
      if character.toNat = 0x22 then some (read, rest)
      else if character == '\\' then
        match rest with
        | 'u' :: units =>
            match readEscapedUnits? units with
            | some (escaped, more) => readText? bound (read.push escaped) more
            | none => none
        | escape :: more =>
            match simpleEscape? escape with
            | some escaped => readText? bound (read.push escaped) more
            | none => none
        | [] => none
      else readText? bound (read.push character) rest

/-! ## Numbers -/

def isDigit (character : Char) : Bool :=
  '0' ≤ character && character ≤ '9'

def readDigits (value : Nat) : List Char → Nat × List Char
  | character :: rest =>
      if isDigit character then readDigits (10 * value + (character.toNat - '0'.toNat)) rest
      else (value, character :: rest)
  | [] => (value, [])

def isNumberCharacter (character : Char) : Bool :=
  isDigit character || character == '.' || character == 'e' || character == 'E' ||
    character == '+' || character == '-'

/-- A number; one with a fraction or an exponent stays as it is written. -/
def readNumber? (source : List Char) : Option (Json × List Char) :=
  let (negative, magnitude) := match source with
    | '-' :: rest => (true, rest)
    | _ => (false, source)
  match magnitude with
  | first :: _ =>
      if !isDigit first then none
      else
        let (value, rest) := readDigits 0 magnitude
        match rest with
        | mark :: _ =>
            if mark == '.' || mark == 'e' || mark == 'E' then
              some (.decimal (String.ofList (source.takeWhile isNumberCharacter)),
                source.dropWhile isNumberCharacter)
            else some (.number (if negative then -(value : Int) else value), rest)
        | [] => some (.number (if negative then -(value : Int) else value), rest)
  | [] => none

/-! ## Values -/

mutual

def readValue? : (bound : Nat) → List Char → Option (Json × List Char)
  | 0, _ => none
  | bound + 1, source =>
      match skipBlanks source with
      | 'n' :: 'u' :: 'l' :: 'l' :: rest => some (.null, rest)
      | 't' :: 'r' :: 'u' :: 'e' :: rest => some (.bool true, rest)
      | 'f' :: 'a' :: 'l' :: 's' :: 'e' :: rest => some (.bool false, rest)
      | '\x22' :: rest =>
          match readText? (rest.length + 1) "" rest with
          | some (read, more) => some (.text read, more)
          | none => none
      | '[' :: rest =>
          match skipBlanks rest with
          | ']' :: more => some (.list [], more)
          | items => readItems? bound [] items
      | '\x7b' :: rest =>
          match skipBlanks rest with
          | '\x7d' :: more => some (.object [], more)
          | members => readMembers? bound [] members
      | other => readNumber? other

/-- The items of a list from the next one on; those before it are kept in
reverse. -/
def readItems? : (bound : Nat) → (before : List Json) → List Char → Option (Json × List Char)
  | 0, _, _ => none
  | bound + 1, before, source =>
      match readValue? bound source with
      | some (item, rest) =>
          match skipBlanks rest with
          | ',' :: more => readItems? bound (item :: before) more
          | ']' :: more => some (.list (item :: before).reverse, more)
          | _ => none
      | none => none

/-- The members of an object from the next one on; those before it are kept in
reverse. -/
def readMembers? : (bound : Nat) → (before : List (String × Json)) → List Char →
    Option (Json × List Char)
  | 0, _, _ => none
  | bound + 1, before, source =>
      match skipBlanks source with
      | '\x22' :: quoted =>
          match readText? (quoted.length + 1) "" quoted with
          | some (name, rest) =>
              match skipBlanks rest with
              | ':' :: rest =>
                  match readValue? bound rest with
                  | some (value, rest) =>
                      match skipBlanks rest with
                      | ',' :: more => readMembers? bound ((name, value) :: before) more
                      | '\x7d' :: more => some (ofMembers ((name, value) :: before).reverse, more)
                      | _ => none
                  | none => none
              | _ => none
          | none => none
      | _ => none

end

/-- Reads a text that holds one value and nothing else. -/
def read? (text : String) : Option Json :=
  let characters := text.toList
  match readValue? (characters.length + 1) characters with
  | some (value, rest) => if (skipBlanks rest).isEmpty then some value else none
  | none => none

end Arm32.Json
