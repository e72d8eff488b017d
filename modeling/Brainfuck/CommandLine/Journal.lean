import Brainfuck.JumpTable
import Brainfuck.Machine.Step
import Brainfuck.Program

/-! The journal of a run, shown when the command line asks for details: one line for each event,
with the part of the interpreter that it comes from. -/

namespace Brainfuck.CommandLine

inductive Origin where
  | argument
  | stream
  deriving DecidableEq, Repr

inductive Event where
  | truncated (capacity : Nat)
  | collected (length : Nat) (origin : Origin)
  | resolved (pairs : Nat)
  /-- Only the start of the program is run. -/
  | shortened (length : Nat)
  /-- A read failed and counted as the end of input. -/
  | missed (f : Fault)
  | finished (s : State)
  /-- Nobody reads the output any more. -/
  | outputClosed
  deriving DecidableEq

namespace Event

/-- The part of the interpreter that reports an event; `console` is the name of the command line
itself. -/
def reporter (console : Text) : Event → Text
  | truncated _ | collected .. => "bfi.sanitizer"
  | resolved _ => "bfi.brackets"
  | missed _ | finished _ => "bfi.engine"
  | shortened _ | outputClosed => console

def message : Event → Text
  | truncated capacity =>
    Text.ofString "program exceeds " ++ Numeral.ofNat capacity ++
      Text.ofString " instructions, truncating"
  | collected length origin =>
    Text.ofString "sanitized " ++ Numeral.ofNat length ++ Text.ofString " instructions from " ++
      Text.ofString (match origin with
        | .argument => "literal source"
        | .stream => "stream")
  | resolved pairs =>
    Text.ofString "resolved " ++ Numeral.ofNat pairs ++ Text.ofString " bracket pairs"
  | shortened length =>
    Text.ofString "running the first " ++ Numeral.ofNat length ++
      Text.ofString " instructions only"
  | missed f =>
    Text.ofString "input read failed (" ++ f.message ++ Text.ofString "), storing 0"
  | finished s =>
    Text.ofString "run finished: " ++ Numeral.ofInt s.steps ++ Text.ofString " steps, " ++
      Numeral.ofInt s.bytesWritten ++ Text.ofString " bytes out, " ++
      Numeral.ofInt s.bytesRead ++ Text.ofString " bytes in, dp=" ++ Numeral.ofInt s.pointer
  | outputClosed => "output closed by reader, stopping"

def line (console : Text) (e : Event) : Text :=
  e.reporter console ++ Text.ofString ": " ++ e.message ++ [Text.newline]

def ofProgram (p : Program) (origin : Origin) : List Event :=
  (if p.truncated then [truncated p.capacity] else []) ++ [collected p.length origin]

/-- The event before a program runs, if only a part of it does. -/
def ofShortened (p : Program) : List Event :=
  if p.truncated then [shortened p.length] else []

end Event

/-- The lines of a journal; none unless details are wanted. -/
def journal (verbose : Bool) (console : Text) (events : List Event) : Text :=
  if verbose then events.flatMap (Event.line console) else []

end Brainfuck.CommandLine
