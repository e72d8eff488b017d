import Brainfuck.Stream.Fault

/-! Output streams. A sink may fail from some write or some flush on, and it may have no flush
at all. -/

namespace Brainfuck

structure Sink where
  /-- How many writes succeed before one fails; `none` if none ever fails. -/
  writeLimit : Option Nat := none
  /-- How many flushes succeed before one fails; `none` if none ever fails. -/
  flushLimit : Option Nat := none
  /-- Whether the stream can be flushed. -/
  flushable : Bool := true
  fault : Fault := ⟨.brokenPipe, Text.ofString "pipe closed"⟩
  written : Array UInt8 := #[]
  writes : Nat := 0
  flushes : Nat := 0
  deriving DecidableEq

namespace Sink

/-- Whether `count` has reached a limit. -/
def exhausted (limit : Option Nat) (count : Nat) : Bool :=
  match limit with
  | none => false
  | some k => k ≤ count

/-- Write bytes in one piece. A failing write stores nothing. -/
def write (bs : List UInt8) (s : Sink) : Option Fault × Sink :=
  if exhausted s.writeLimit s.writes then (some s.fault, s)
  else (none, { s with written := s.written ++ bs, writes := s.writes + 1 })

/-- Pass on what was written, if the stream can. -/
def flush (s : Sink) : Option Fault × Sink :=
  if ! s.flushable then (none, s)
  else if exhausted s.flushLimit s.flushes then (some s.fault, s)
  else (none, { s with flushes := s.flushes + 1 })

/-- Write one byte and pass it on at once. -/
def put (b : UInt8) (s : Sink) : Option Fault × Sink :=
  match s.write [b] with
  | (some f, s) => (some f, s)
  | (none, s) => s.flush

end Sink

end Brainfuck
