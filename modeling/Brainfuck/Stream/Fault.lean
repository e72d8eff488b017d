import Brainfuck.Text.Basic

/-! What a stream reports when it fails. -/

namespace Brainfuck

inductive FaultKind where
  | device
  /-- The other end of a pipe is gone. -/
  | brokenPipe
  /-- The stream is closed or refuses the request. -/
  | refused
  /-- The stream itself is at fault. -/
  | internal
  /-- More was asked for than a request can hold. -/
  | oversize
  deriving DecidableEq, Repr

structure Fault where
  kind : FaultKind
  message : Text
  deriving DecidableEq

namespace Fault

/-- A failing read with such a fault counts as the end of input; any other one ends the run. -/
def isEndOfInput (f : Fault) : Bool :=
  match f.kind with
  | .device | .brokenPipe | .refused => true
  | .internal | .oversize => false

def isBrokenPipe (f : Fault) : Bool :=
  f.kind == .brokenPipe

end Fault

end Brainfuck
