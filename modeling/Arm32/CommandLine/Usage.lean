import Arm32.CommandLine.Switch
import Arm32.Text.Quoted

namespace Arm32.CommandLine

/-! What can be wrong with a command line. -/

inductive UsageError where
  | ambiguous (argument : String) (candidates : List String)
  | missingValue (switch : Switch)
  | invalidValue (switch : Switch) (value : String)
  | unexpectedValue (switch : Switch) (value : String)
  | missingImage
  | unrecognized (arguments : List String)
deriving DecidableEq, Repr

namespace UsageError

def ofSwitch (switch : Switch) (complaint : String) : String :=
  "argument " ++ switch.name ++ ": " ++ complaint

def message : UsageError → String
  | .ambiguous argument candidates =>
      "ambiguous option: " ++ argument ++ " could match " ++ ", ".intercalate candidates
  | .missingValue switch => ofSwitch switch "expected one argument"
  | .invalidValue switch value =>
      ofSwitch switch ("invalid " ++ switch.valueType ++ " value: " ++ Text.quoted value)
  | .unexpectedValue switch value =>
      ofSwitch switch ("ignored explicit argument " ++ Text.quoted value)
  | .missingImage => "the following arguments are required: image"
  | .unrecognized arguments => "unrecognized arguments: " ++ " ".intercalate arguments

end UsageError

end Arm32.CommandLine
