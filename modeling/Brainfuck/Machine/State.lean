import Brainfuck.Memory

/-! The state of a machine: a tape of bytes, a pointer to one of its cells, the position in the
program, and counters. The pointer is any integer; one below zero counts from the tape's end. -/

namespace Brainfuck

/-- The state of a machine. The counters go on over several runs. -/
structure State where
  tape : Array UInt8
  pointer : Int := 0
  /-- The position of the next instruction. -/
  position : Int := 0
  /-- The number of instructions carried out. -/
  steps : Int := 0
  bytesRead : Int := 0
  bytesWritten : Int := 0
  /-- The number of reads that found no input. -/
  emptyReads : Int := 0
  deriving DecidableEq

namespace State

def defaultTapeSize : Int := 30000

/-- A machine with a tape of zeros, if there is room for it. -/
def new (memory : Memory) (tapeSize : Int) : Except Error State :=
  if tapeSize ≤ 0 then .error (.notPositive .tapeSize tapeSize)
  else
    (memory.reserve tapeSize .tapeTooLarge).map fun _ =>
      { tape := Array.replicate tapeSize.toNat 0 }

variable {memory : Memory} {n : Int} {s : State} {e : Error}

theorem new_of_pos (h : 0 < n) : new memory n =
    (memory.reserve n .tapeTooLarge).map fun _ => { tape := Array.replicate n.toNat 0 } :=
  if_neg (by omega)

/-- A machine is made only if its size is positive and an offset; its cells are zeros. -/
theorem eq_of_new (h : new memory n = .ok s) :
    0 < n ∧ Offset.isWide n = false ∧ s = { tape := Array.replicate n.toNat 0 } := by
  by_cases hn : 0 < n
  · rw [new_of_pos hn] at h
    cases hr : memory.reserve n .tapeTooLarge with
    | error e =>
      rw [hr] at h
      cases h
    | ok u =>
      rw [hr] at h
      exact ⟨hn, Memory.isWide_of_reserve hr, (Except.ok.inj h).symm⟩
  · rw [new, if_pos (by omega)] at h
    cases h

/-- A size that is positive is refused only for being too large. -/
theorem eq_of_new_error (hn : 0 < n) (h : new memory n = .error e) :
    e = .tapeTooLarge ∨ e = .outOfMemory := by
  rw [new_of_pos hn] at h
  cases hr : memory.reserve n .tapeTooLarge with
  | error e' =>
    rw [hr] at h
    exact Except.error.inj h ▸ Memory.eq_of_reserve_error hr
  | ok u =>
    rw [hr] at h
    cases h

theorem new_of_limit_le (h : Offset.limit ≤ n) : new memory n = .error .tapeTooLarge := by
  have hlimit : Offset.limit = 0x8000000000000000 := rfl
  have hw : Offset.isWide n = true := by simp [Offset.isWide, h]
  rw [new_of_pos (by omega), Memory.reserve_of_isWide hw]
  rfl

/-- The index of the cell that a pointer addresses on a tape of `size` cells. -/
def cellIndex (size : Nat) (pointer : Int) : Except Error Nat :=
  match Offset.index? size pointer with
  | some i => .ok i
  | none => .error (if Offset.isWide pointer then .pointerTooWide else .pointerOutside)

def cell (s : State) : Except Error UInt8 :=
  (cellIndex s.tape.size s.pointer).map fun i => s.tape.getD i 0

def store (s : State) (i : Nat) (b : UInt8) : State :=
  { s with tape := s.tape.setIfInBounds i b }

end State

end Brainfuck
