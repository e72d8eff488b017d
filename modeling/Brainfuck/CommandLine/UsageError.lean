import Brainfuck.CommandLine.Flag
import Brainfuck.Error

/-! Why a command line is refused. -/

namespace Brainfuck.CommandLine

inductive UsageError where
  | ambiguous (argument : Text) (candidates : List Flag)
  | missingValue (f : Flag)
  | notAnInteger (f : Flag) (raw : Text)
  /-- A value is given to an option that takes none. -/
  | unwantedValue (f : Flag) (value : Text)
  | unrecognized (arguments : List Text)
  | settings (e : Error)
  deriving DecidableEq

def UsageError.message : UsageError → Text
  | ambiguous argument candidates =>
    Text.ofString "ambiguous option: " ++ argument ++ Text.ofString " could match " ++
      Text.join ", " (candidates.map Flag.long)
  | missingValue f =>
    Text.ofString "argument " ++ f.title ++ Text.ofString ": expected one argument"
  | notAnInteger f raw =>
    Text.ofString "argument " ++ f.title ++ Text.ofString ": invalid int value: " ++
      Quoted.ofText raw
  | unwantedValue f value =>
    Text.ofString "argument " ++ f.title ++ Text.ofString ": ignored explicit argument " ++
      Quoted.ofText value
  | unrecognized arguments =>
    Text.ofString "unrecognized arguments: " ++ Text.join " " arguments
  | settings e => e.message

end Brainfuck.CommandLine
