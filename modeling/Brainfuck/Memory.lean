import Brainfuck.Error
import Brainfuck.Offset

/-! Memory. A sequence is made only if its length is an offset and there is room for it; whether
there is room is up to the surroundings. -/

namespace Brainfuck

/-- The memory at hand: for which numbers of elements there is room. -/
structure Memory where
  holds : Nat → Bool

namespace Memory

/-- A memory with room for `n` elements and no more. -/
def upTo (n : Nat) : Memory := ⟨fun k => k ≤ n⟩

/-- Find room for a sequence; `wide` is the error if its length is no offset at all. -/
def reserve (memory : Memory) (length : Int) (wide : Error) : Except Error Unit :=
  if Offset.isWide length then .error wide
  else if 0 < length ∧ memory.holds length.toNat = false then .error .outOfMemory
  else .ok ()

variable {memory : Memory} {length : Int} {wide e : Error}

theorem reserve_of_isWide (h : Offset.isWide length = true) :
    memory.reserve length wide = .error wide := if_pos h

theorem reserve_of_holds (hw : Offset.isWide length = false)
    (h : memory.holds length.toNat = true) : memory.reserve length wide = .ok () := by
  simp [reserve, hw, h]

theorem isWide_of_reserve (h : memory.reserve length wide = .ok ()) :
    Offset.isWide length = false := by
  rw [reserve] at h
  split at h
  · cases h
  · exact Bool.eq_false_iff.mpr ‹_›

theorem eq_of_reserve_error (h : memory.reserve length wide = .error e) :
    e = wide ∨ e = .outOfMemory := by
  rw [reserve] at h
  split at h
  · exact .inl (Except.error.inj h).symm
  · split at h
    · exact .inr (Except.error.inj h).symm
    · cases h

end Memory

/-- The excerpt around a position, if there is room for the blanks before its caret. -/
def Excerpt.make (memory : Memory) (code : Text) (position radius : Int) : Except Error Text :=
  (memory.reserve (column position radius) .columnTooWide).map fun _ => around code position radius

/-- A rejection whose excerpt can be shown. -/
def Rejection.make (memory : Memory) (r : Rejection) : Except Error Rejection :=
  match r with
  | .unclosedLoop code position _ | .unopenedLoop code position =>
    (Excerpt.make memory code position Excerpt.defaultRadius).map fun _ => r
  | .tooLong _ => .ok r

end Brainfuck
