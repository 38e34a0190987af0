import Arm32.CommandLine.Usage
import Arm32.Text.Digit

namespace Arm32.CommandLine

/-! Arguments, told apart by their form. What begins with a dash is a switch,
unless it is a negative decimal number or holds a space. -/

inductive Token where
  | value (text : String)
  | separator
  | switch (switch : Switch) (long : Bool) (attached? : Option String)
  | unknown (text : String)
deriving DecidableEq, Repr

namespace Token

def isDigit (character : Char) : Bool :=
  (Text.digitValue? character).isSome

/-- A text without the line feed at its end. -/
def dropLineFeed (text : List Char) : List Char :=
  match text.reverse with
  | '\n' :: rest => rest.reverse
  | _ => text

/-- Whether a text is a minus sign before digits with at most one point, which
has digits after it. -/
def isNegativeNumber (argument : String) : Bool :=
  match argument.toList with
  | '-' :: rest =>
      let figures := dropLineFeed rest
      match figures.dropWhile isDigit with
      | [] => !figures.isEmpty
      | '.' :: fraction => !fraction.isEmpty && fraction.all isDigit
      | _ => false
  | _ => false

/-- An argument up to its first equals sign, and the value after it. -/
def splitValue (argument : String) : String × Option String :=
  let characters := argument.toList
  match characters.dropWhile (· != '=') with
  | _ :: attached =>
      (String.ofList (characters.takeWhile (· != '=')), some (String.ofList attached))
  | [] => (argument, none)

/-- The switches with a long spelling that begins like an argument. -/
def completions (beginning : String) : List (String × Switch) :=
  Switch.spellings.filter fun (spelling, _) =>
    beginning.toList == spelling.toList.take beginning.length

/-- An argument that names no switch after all. -/
def ofOther (argument : String) : Token :=
  if isNegativeNumber argument || argument.toList.contains ' ' then .value argument
  else .unknown argument

/-- An argument with two dashes may leave out the end of the spelling. -/
def ofLong (argument : String) : Except UsageError Token :=
  let (beginning, attached?) := splitValue argument
  match completions beginning with
  | [] => .ok (ofOther argument)
  | [(_, only)] => .ok (.switch only true attached?)
  | candidates => .error (.ambiguous argument (candidates.map (·.1)))

/-- An argument with one dash may carry more after its letter. -/
def ofShort (argument : String) : Token :=
  match Switch.ofSpelling? (String.ofList (argument.toList.take 2)) with
  | some lettered => .switch lettered false (some (String.ofList (argument.toList.drop 2)))
  | none => ofOther argument

/-- A spelling is long if it has two dashes. -/
def isLong (spelling : String) : Bool :=
  spelling.toList.take 2 == ['-', '-']

/-- The form of one argument before any separator. -/
def ofArgument (argument : String) : Except UsageError Token :=
  match argument.toList with
  | '-' :: _ :: _ =>
      let (spelling, attached?) := splitValue argument
      match Switch.ofSpelling? argument, Switch.ofSpelling? spelling with
      | some spelled, _ => .ok (.switch spelled (isLong argument) none)
      | none, some spelled => .ok (.switch spelled (isLong spelling) attached?)
      | none, none => if isLong argument then ofLong argument else .ok (ofShort argument)
  | _ => .ok (.value argument)

/-- The forms of all arguments. After a separator every argument is a value. -/
def ofArguments : List String → Except UsageError (List Token)
  | [] => .ok []
  | argument :: rest =>
      if argument = "--" then .ok (.separator :: rest.map .value)
      else do
        let token ← ofArgument argument
        let tokens ← ofArguments rest
        return token :: tokens

end Token

end Arm32.CommandLine
