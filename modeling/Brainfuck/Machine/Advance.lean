import Brainfuck.Machine.Step

/-! Several instructions in a row. Advancing by a sum of steps is advancing twice, so a run may be
cut anywhere, and a run that has ended stays as it is however many steps are added. -/

namespace Brainfuck

/-- Go on from where a run stands, unless it has ended. -/
def Progress.andThen (p : Progress) (f : Config → Progress) : Progress :=
  match p with
  | .running c => f c
  | .finished c => .finished c
  | .failed e c => .failed e c

namespace Image

/-- Carry out at most `n` instructions. -/
def advance (image : Image) : Nat → Config → Progress
  | 0, c => .running c
  | n + 1, c =>
    match image.step c with
    | .running c' => advance image n c'
    | .finished c' => .finished c'
    | .failed e c' => .failed e c'

variable (image : Image)

@[simp]
theorem advance_zero (c : Config) : image.advance 0 c = .running c := rfl

theorem advance_succ (n : Nat) (c : Config) :
    image.advance (n + 1) c = (image.step c).andThen (image.advance n) := by
  rw [advance]
  cases image.step c <;> rfl

theorem advance_one (c : Config) : image.advance 1 c = image.step c := by
  rw [advance_succ]
  cases image.step c <;> rfl

theorem advance_add (m n : Nat) (c : Config) :
    image.advance (m + n) c = (image.advance m c).andThen (image.advance n) := by
  induction m generalizing c with
  | zero => simp [Progress.andThen]
  | succ m ih =>
    rw [show m + 1 + n = (m + n) + 1 by omega, advance_succ, advance_succ]
    cases image.step c with
    | running c' => exact ih c'
    | finished c' => rfl
    | failed e c' => rfl

end Image

end Brainfuck
