import Brainfuck.Command
import Brainfuck.Error

/-! Jump tables: which bracket belongs to which. A table has a slot for every position of the
program, and a slot is empty if the position holds no such bracket. -/

namespace Brainfuck

/-- The partner of every bracket of a program. -/
structure JumpTable where
  /-- For the start of a loop, the position of its end. -/
  ends : Array (Option Int)
  /-- For the end of a loop, the position of its start. -/
  starts : Array (Option Int)
  deriving DecidableEq

namespace JumpTable

/-- A table for `n` positions with no bracket among them. -/
def empty (n : Nat) : JumpTable :=
  ⟨Array.replicate n none, Array.replicate n none⟩

/-- Record that the loop from `start` ends at `stop`. -/
def link (t : JumpTable) (start stop : Nat) : JumpTable :=
  ⟨t.ends.setIfInBounds start (some stop), t.starts.setIfInBounds stop (some start)⟩

def length (t : JumpTable) : Nat := t.ends.size

def pairs (t : JumpTable) : Nat := t.ends.countP Option.isSome

/-- The bracket that belongs to the one at a position. -/
def partner? (t : JumpTable) (position : Int) : Option Int :=
  if 0 ≤ position ∧ position < t.length then
    (t.ends[position.toNat]?.join).or t.starts[position.toNat]?.join
  else none

/-- Match the brackets of the rest of `code` from `position` on. `pending` holds the open loops,
the innermost first. -/
def scan (code : Text) : Text → Nat → List Nat → JumpTable → Except Rejection JumpTable
  | [], _, [], t => .ok t
  | [], _, start :: outer, _ => .error (.unclosedLoop code start (outer.length + 1))
  | c :: rest, position, pending, t =>
    match Command.ofCodePoint? c, pending with
    | some .loopStart, _ => scan code rest (position + 1) (position :: pending) t
    | some .loopEnd, [] => .error (.unopenedLoop code position)
    | some .loopEnd, start :: outer =>
      scan code rest (position + 1) outer (t.link start position)
    | _, _ => scan code rest (position + 1) pending t

/-- The jump table of a program; anything but a bracket just takes up a position. -/
def resolve (code : Text) : Except Rejection JumpTable :=
  scan code code 0 [] (empty code.length)

end JumpTable

end Brainfuck
