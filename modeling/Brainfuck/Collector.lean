import Brainfuck.Error
import Brainfuck.Program

/-! Collecting a program piece by piece. A collector keeps the commands of the pieces it is fed,
up to its capacity. Beyond that a strict collector refuses the piece, and any other drops the
surplus and remembers that it did. -/

namespace Brainfuck

structure Collector where
  capacity : Nat
  strict : Bool
  truncated : Bool := false
  kept : Array Command := #[]
  deriving DecidableEq

namespace Collector

def new (capacity : Int) (strict : Bool) : Except Error Collector :=
  if 0 < capacity then .ok { capacity := capacity.toNat, strict }
  else .error (.notPositive .capacity capacity)

def size (c : Collector) : Nat := c.kept.size

def isFull (c : Collector) : Bool := c.capacity ≤ c.size

/-- The answer of a collector that took a piece: whether there is room for more. -/
def accepted (c : Collector) : Except Error Bool × Collector := (.ok (! c.isFull), c)

/-- Take the commands of a piece, as far as there is room. A refused piece leaves the collector as
it is. -/
def feed (c : Collector) (piece : Source) : Except Error Bool × Collector :=
  let found := piece.commands
  let room := c.capacity - c.size
  if found.length ≤ room then accepted { c with kept := c.kept ++ found }
  else if c.strict then (.error (.rejected (.tooLong c.capacity)), c)
  else accepted { c with truncated := true, kept := c.kept ++ found.take room }

def program (c : Collector) : Program :=
  { commands := c.kept.toList, truncated := c.truncated, capacity := c.capacity }

end Collector

def Source.program (s : Source) (capacity : Int) (strict : Bool) : Except Error Program := do
  let empty ← Collector.new capacity strict
  let (answer, full) := empty.feed s
  answer.map fun _ => full.program

end Brainfuck
