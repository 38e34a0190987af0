import Arm32.Numeral
import Arm32.Text.Printable

namespace Arm32.Text

/-! Quoted text in messages. The quote is single unless the text holds single
quotes and no double ones; characters without a visible form are escaped. -/

def singleQuote : Char := Char.ofNat 39

def doubleQuote : Char := Char.ofNat 34

def backslash : Char := Char.ofNat 92

def quoteFor (text : List Char) : Char :=
  if text.contains singleQuote && !text.contains doubleQuote then doubleQuote else singleQuote

/-- Lower-case hexadecimal digits of a code point, filled to a width. -/
def codePoint (width : Nat) (character : Char) : List Char :=
  Numeral.characters { base := 16, width } character.toNat

def escape (quote character : Char) : List Char :=
  if character == quote || character == backslash then [backslash, character]
  else if character == '\t' then [backslash, 't']
  else if character == '\n' then [backslash, 'n']
  else if character == '\r' then [backslash, 'r']
  else if isPrintable character then [character]
  else if character.toNat < 0x100 then backslash :: 'x' :: codePoint 2 character
  else if character.toNat < 0x10000 then backslash :: 'u' :: codePoint 4 character
  else backslash :: 'U' :: codePoint 8 character

def quoted (text : String) : String :=
  let quote := quoteFor text.toList
  String.ofList (quote :: text.toList.flatMap (escape quote) ++ [quote])

end Arm32.Text
