import Brainfuck.Proofs.Block.Syntax

/-! What a block does, without positions. A store is a ring of cells with a pointer to one of them,
the input still to come, the output so far, and counters. A single instruction changes the store;
a loop does nothing if the cell is zero, and otherwise runs its body and starts over. -/

namespace Brainfuck

/-- A ring of `size` cells with its pointer and streams. -/
structure Store (size : Nat) where
  tape : Vector UInt8 size
  pointer : Fin size
  unread : List UInt8
  output : List UInt8
  bytesRead : Nat
  bytesWritten : Nat
  emptyReads : Nat

namespace Store

variable {size : Nat}

/-- The neighbour on the right; after the last cell comes the first. -/
def succ (p : Fin size) : Fin size :=
  if h : p.1 + 1 < size then ⟨p.1 + 1, h⟩ else ⟨0, p.pos⟩

/-- The neighbour on the left; before the first cell comes the last. -/
def pred (p : Fin size) : Fin size :=
  if p.1 = 0 then ⟨size - 1, Nat.sub_one_lt_of_lt p.pos⟩
  else ⟨p.1 - 1, Nat.lt_of_le_of_lt (Nat.sub_le _ _) p.2⟩

def cell (s : Store size) : UInt8 := s.tape[s.pointer]

def put (s : Store size) (b : UInt8) : Store size := { s with tape := s.tape.set s.pointer b }

/-- Take the next byte of the input into the cell, or zero if there is none. -/
def take (s : Store size) : Store size :=
  match s.unread with
  | [] => { s.put 0 with emptyReads := s.emptyReads + 1 }
  | b :: unread => { s.put b with unread, bytesRead := s.bytesRead + 1 }

/-- What a single instruction does; all but the six plain commands do nothing. -/
def act (s : Store size) : Option Command → Store size
  | some .right => { s with pointer := succ s.pointer }
  | some .left => { s with pointer := pred s.pointer }
  | some .increment => s.put (s.cell + 1)
  | some .decrement => s.put (s.cell - 1)
  | some .output => { s with output := s.output ++ [s.cell], bytesWritten := s.bytesWritten + 1 }
  | some .input => s.take
  | _ => s

end Store

namespace Block

variable {size : Nat}

/-- `b.Runs s n s'`: the block takes the store `s` to `s'` and carries out `n` instructions. A
single instruction counts one; a loop counts one at its start and one after each round. -/
inductive Runs : Block → Store size → Nat → Store size → Prop where
  | done {s} : Runs done s 0 s
  | single {x rest s n s'} (next : Runs rest (s.act (Command.ofCodePoint? x.1)) n s') :
    Runs (single x rest) s (n + 1) s'
  | loopSkip {body rest s n s'} (zero : s.cell = 0) (next : Runs rest s n s') :
    Runs (loop body rest) s (n + 1) s'
  | loopRound {body rest s m s₁ n s'} (nonzero : s.cell ≠ 0) (round : Runs body s m s₁)
    (again : Runs (loop body rest) s₁ n s') : Runs (loop body rest) s (m + 1 + n) s'

theorem Runs.loop_pos {body rest : Block} {s s' : Store size} {n : Nat}
    (h : (loop body rest).Runs s n s') : 0 < n := by
  cases h <;> omega

end Block

end Brainfuck
