/-! Positions counted from either end of a sequence. -/

namespace Brainfuck.Offset

/-- Offsets lie below this number, and not below its negative: they have 64 bits and a sign. -/
def limit : Int := 0x8000000000000000

/-- Whether a number is too wide to be an offset at all. -/
def isWide (n : Int) : Bool :=
  n < -limit || limit ≤ n

/-- The index that an offset addresses among `size` elements: a negative offset counts from the
end, and an offset beyond either end addresses nothing. -/
def index? (size : Nat) (offset : Int) : Option Nat :=
  if 0 ≤ offset then
    if offset < size then some offset.toNat else none
  else if 0 ≤ size + offset then some (size + offset).toNat
  else none

theorem lt_of_index? {size : Nat} {offset : Int} {i : Nat} (h : index? size offset = some i) :
    i < size := by
  simp only [index?] at h
  repeat' split at h
  all_goals simp at h <;> omega

theorem index?_of_nonneg {size : Nat} {offset : Int} (h₀ : 0 ≤ offset) (h : offset < size) :
    index? size offset = some offset.toNat := by
  simp [index?, h₀, h]

end Brainfuck.Offset
