import Brainfuck.Collector.Stream
import Brainfuck.Machine.Execution
import Brainfuck.Settings

/-! Running a program from its source: load it, give it its input, and run it. -/

namespace Brainfuck

def load (source : Source) (settings : Settings) : Except Error (Program × JumpTable) := do
  let settings ← settings.validate
  let program ← source.program settings.programMax settings.strict
  let jumps ← (JumpTable.resolve program.text).mapError Error.rejected
  return (program, jumps)

structure Report where
  output : Array UInt8
  state : State
  program : Program
  deriving DecidableEq

/-- The bytes a program is given as input; text must consist of characters. -/
def Source.inputBytes : Source → Except Error (List UInt8)
  | .bytes bs => .ok bs
  | .text t => t.encodeStrict.mapError Error.surrogates

/-- The run of a source on an input in memory, ready to start. -/
def prepareSource (memory : Memory) (source input : Source) (settings : Settings) :
    Except Error (Program × Execution) := do
  let (program, jumps) ← load source settings
  let bytes ← input.inputBytes
  let execution ← Execution.start memory program.text (some jumps) none settings.tapeSize
    (.memory (.bytes bytes)) {}
  return (program, execution)

/-- Run a source on an input in memory, collecting its output. -/
def runSource (memory : Memory) (budget : Nat) (source input : Source) (settings : Settings) :
    Option (Except Error Report) :=
  match prepareSource memory source input settings with
  | .error e => some (.error e)
  | .ok (program, execution) =>
    (execution.run budget).map fun o =>
      match o.error? with
      | some e => .error e
      | none => .ok { output := o.final.sink.written, state := o.final.state, program }

structure StreamReport where
  /-- The final state, or why there is none. -/
  result : Except Error State
  source : Input
  input : Input
  sink : Sink

/-- Run the program that a stream delivers. Without a separate input the program reads what is
left of its own stream. -/
def runStream (memory : Memory) (budget : Nat) (source : Input) (input? : Option Input)
    (sink : Sink) (settings : Settings) : Option StreamReport :=
  let unstarted (e : Error) (source : Input) : StreamReport :=
    { result := .error e, source, input := input?.getD source, sink }
  match settings.validate with
  | .error e => some (unstarted e source)
  | .ok settings =>
    match source.program settings.programMax settings.strict Collector.defaultChunk with
    | (.error e, rest) => some (unstarted e rest)
    | (.ok program, rest) =>
      match Execution.start memory program.text none none settings.tapeSize (input?.getD rest)
        sink with
      | .error e => some (unstarted e rest)
      | .ok execution =>
        (execution.run budget).map fun o => {
          result := match o.error? with
            | some e => .error e
            | none => .ok o.final.state
          source := if input?.isSome then rest else o.final.input
          input := o.final.input
          sink := o.final.sink }

end Brainfuck
