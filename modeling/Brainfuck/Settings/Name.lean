import Brainfuck.Text.Basic

/-! Names of the quantities that must be positive and of the environment variables that set
them, as messages show them. -/

namespace Brainfuck

/-- A quantity that must be positive. -/
inductive Limit where
  /-- The most commands a collector keeps. -/
  | capacity
  /-- How much of a program stream is read at a time. -/
  | chunkSize
  | programMax
  | tapeSize
  deriving DecidableEq, Repr

def Limit.name : Limit → Text
  | capacity => "capacity"
  | chunkSize => "chunk_size"
  | programMax => "program_max"
  | tapeSize => "tape_size"

inductive Variable where
  | programMax
  | tapeSize
  | strict
  deriving DecidableEq, Repr

def Variable.name : Variable → Text
  | programMax => "BFI_PROGRAM_MAX"
  | tapeSize => "BFI_TAPE_SIZE"
  | strict => "BFI_STRICT"

end Brainfuck
