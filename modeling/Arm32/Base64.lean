namespace Arm32.Base64

/-! Strict base64: the standard alphabet and nothing else, in groups of four. The
last group may be filled with padding, and after a full group any amount of
padding is accepted. Bits of the last group that make no byte are dropped. -/

/-- The six bits that a character of the alphabet stands for. -/
def sextet? (character : Char) : Option Nat :=
  if 'A' ≤ character && character ≤ 'Z' then some (character.toNat - 'A'.toNat)
  else if 'a' ≤ character && character ≤ 'z' then some (character.toNat - 'a'.toNat + 26)
  else if '0' ≤ character && character ≤ '9' then some (character.toNat - '0'.toNat + 52)
  else if character == '+' then some 62
  else if character == '/' then some 63
  else none

def firstByte (first second : Nat) : UInt8 :=
  UInt8.ofNat (4 * first + second / 16)

def secondByte (second third : Nat) : UInt8 :=
  UInt8.ofNat (second % 16 * 16 + third / 4)

def thirdByte (third fourth : Nat) : UInt8 :=
  UInt8.ofNat (third % 4 * 64 + fourth)

/-- Decodes what is left of a text. The bytes before it are kept in reverse, and
there has to be a group before padding stands on its own. -/
def decodeRest? (before : List UInt8) (afterGroup : Bool) : List Char → Option (List UInt8)
  | [] => some before.reverse
  | '=' :: rest => if afterGroup && rest.all (· == '=') then some before.reverse else none
  | [first, second, '=', '='] => do
      let first ← sextet? first
      let second ← sextet? second
      return (firstByte first second :: before).reverse
  | [first, second, third, '='] => do
      let first ← sextet? first
      let second ← sextet? second
      let third ← sextet? third
      return (secondByte second third :: firstByte first second :: before).reverse
  | first :: second :: third :: fourth :: rest =>
      match sextet? first, sextet? second, sextet? third, sextet? fourth with
      | some first, some second, some third, some fourth =>
          decodeRest?
            (thirdByte third fourth :: secondByte second third :: firstByte first second :: before)
            true rest
      | _, _, _, _ => none
  | _ => none

def decode? (text : String) : Option (List UInt8) :=
  decodeRest? [] false text.toList

/-! ## Encoding -/

def character (sextet : Nat) : Char :=
  if sextet < 26 then Char.ofNat ('A'.toNat + sextet)
  else if sextet < 52 then Char.ofNat ('a'.toNat + (sextet - 26))
  else if sextet < 62 then Char.ofNat ('0'.toNat + (sextet - 52))
  else if sextet = 62 then '+'
  else '/'

/-- Encodes bytes in groups of three behind what is written so far. -/
def encodeRest (written : String) : List UInt8 → String
  | [] => written
  | [first] =>
      ((written.push (character (first.toNat / 4))).push
        (character (first.toNat % 4 * 16))) ++ "=="
  | [first, second] =>
      (((written.push (character (first.toNat / 4))).push
        (character (first.toNat % 4 * 16 + second.toNat / 16))).push
        (character (second.toNat % 16 * 4))).push '='
  | first :: second :: third :: rest =>
      encodeRest
        ((((written.push (character (first.toNat / 4))).push
          (character (first.toNat % 4 * 16 + second.toNat / 16))).push
          (character (second.toNat % 16 * 4 + third.toNat / 64))).push
          (character (third.toNat % 64)))
        rest

def encode (bytes : List UInt8) : String :=
  encodeRest "" bytes

end Arm32.Base64
