import Brainfuck.Machine.Advance

/-! Whole runs. A run takes a budget of steps and has an outcome only if it ends within it, so a
run that never ends has no outcome for any budget. -/

namespace Brainfuck

/-- How a run ended, and the machine and its streams afterwards. -/
structure Outcome where
  /-- The failure that ended the run; `none` if the program came to its end. -/
  error? : Option Error
  final : Config
  deriving DecidableEq

def Progress.outcome? : Progress → Option Outcome
  | .running _ => none
  | .finished c => some ⟨none, c⟩
  | .failed e c => some ⟨some e, c⟩

structure Execution where
  image : Image
  config : Config
  deriving DecidableEq

namespace Execution

/-- A run of `code` from its start. Its brackets are matched unless a jump table is given, and it
starts on a new machine with `tapeSize` cells unless a state is given. -/
def start (memory : Memory) (code : Text) (jumps? : Option JumpTable) (state? : Option State)
    (tapeSize : Int) (input : Input) (sink : Sink) : Except Error Execution := do
  let image ← match jumps? with
    | some jumps => pure (Image.ofTable code jumps)
    | none => (Image.ofText code).mapError Error.rejected
  let state ← match state? with
    | some state => pure state
    | none => State.new memory tapeSize
  return { image, config := .start state input sink }

/-- Run for at most `budget` steps. -/
def run (p : Execution) (budget : Nat) : Option Outcome :=
  (p.image.advance budget p.config).outcome?

/-- Run `code` on the machine `s` and its streams for at most `budget` steps. A program that cannot
be started leaves them as they are. -/
def runOn (memory : Memory) (code : Text) (jumps? : Option JumpTable) (s : State) (tapeSize : Int)
    (input : Input) (sink : Sink) (budget : Nat) : Option Outcome :=
  match start memory code jumps? (some s) tapeSize input sink with
  | .error e => some ⟨some e, { state := s, input, sink }⟩
  | .ok p => p.run budget

end Execution

end Brainfuck
