import Brainfuck.Text.Basic

/-! The options of the command line and their names. -/

namespace Brainfuck.CommandLine

inductive Flag where
  | help
  | tapeSize
  | programMax
  | strict
  | verbose
  deriving DecidableEq, Repr

inductive Spelling where
  /-- A dash and a letter. -/
  | short
  | long
  deriving DecidableEq, Repr

namespace Flag

/-- All options, in the order in which they are listed. -/
def all : List Flag := [help, tapeSize, programMax, strict, verbose]

def long : Flag → Text
  | help => "--help"
  | tapeSize => "--tape-size"
  | programMax => "--program-max"
  | strict => "--strict"
  | verbose => "--verbose"

def letter? : Flag → Option CodePoint
  | help => some (.ofChar 'h')
  | verbose => some (.ofChar 'v')
  | tapeSize | programMax | strict => none

def takesValue : Flag → Bool
  | tapeSize | programMax => true
  | help | strict | verbose => false

def dash : CodePoint := .ofChar '-'

def short? (f : Flag) : Option Text :=
  f.letter?.map fun c => [dash, c]

/-- All names, as messages show them. -/
def title (f : Flag) : Text :=
  match f.short? with
  | none => f.long
  | some short => short ++ Text.ofString "/" ++ f.long

def ofLetter? (c : CodePoint) : Option Flag :=
  all.find? fun f => f.letter? == some c

def named? (t : Text) : Option (Flag × Spelling) :=
  match all.find? fun f => f.short? == some t with
  | some f => some (f, .short)
  | none => (all.find? fun f => f.long == t).map (·, .long)

/-- The options whose long name starts with `t`. -/
def completions (t : Text) : List Flag :=
  all.filter fun f => t.isPrefixOf f.long

end Flag

end Brainfuck.CommandLine
