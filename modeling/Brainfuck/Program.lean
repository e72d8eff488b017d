import Brainfuck.Source

/-! A program: the commands kept of a source, within a capacity. -/

namespace Brainfuck

/-- The commands of a source, as far as the capacity allowed. -/
structure Program where
  commands : List Command
  /-- Whether commands were dropped for lack of room. -/
  truncated : Bool
  capacity : Nat
  deriving DecidableEq

namespace Program

def text (p : Program) : Text := Text.ofCommands p.commands

def length (p : Program) : Nat := p.commands.length

end Program

end Brainfuck
