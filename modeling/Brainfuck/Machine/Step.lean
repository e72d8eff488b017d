import Brainfuck.JumpTable
import Brainfuck.Machine.State
import Brainfuck.Stream.Input
import Brainfuck.Stream.Sink

/-! One instruction of a machine. -/

namespace Brainfuck

/-- A program ready to run: the command at each position, if any, and its jump table. -/
structure Image where
  code : Array (Option Command)
  jumps : JumpTable
  deriving DecidableEq

namespace Image

def ofTable (code : Text) (jumps : JumpTable) : Image :=
  ⟨(code.map Command.ofCodePoint?).toArray, jumps⟩

def ofText (code : Text) : Except Rejection Image :=
  (JumpTable.resolve code).map (ofTable code)

end Image

structure Config where
  state : State
  input : Input
  sink : Sink
  /-- The failures of the input that were taken for its end, in order. -/
  missed : Array Fault := #[]
  deriving DecidableEq

inductive Progress where
  | running (c : Config)
  | finished (c : Config)
  /-- The instruction at the position failed. -/
  | failed (e : Error) (c : Config)
  deriving DecidableEq

/-- What a read for one cell delivers: a byte, or nothing at the end of input. -/
def Reply.byte? : Reply → Except Error (Option UInt8)
  | .nothing => .ok none
  | .fault f => if f.isEndOfInput then .ok none else .error (.stream f)
  | .data (.bytes []) => .ok none
  | .data (.bytes (b :: _)) => .ok (some b)
  | .data (.text []) => .ok none
  | .data (.text [c]) => .ok (some (.ofNat c.value))
  | .data (.text t) => .error (.manyCharacters t.length)

/-- The failure behind a reply that is taken for the end of input. -/
def Reply.missed? : Reply → Option Fault
  | .fault f => if f.isEndOfInput then some f else none
  | _ => none

/-- Put what a read delivered into the cell with index `i` and count it. -/
def State.receive (s : State) (i : Nat) : Option UInt8 → State
  | none =>
    let s := s.store i 0
    { s with emptyReads := s.emptyReads + 1 }
  | some b =>
    let s := s.store i b
    { s with bytesRead := s.bytesRead + 1 }

namespace Config

def start (s : State) (input : Input) (sink : Sink) : Config :=
  { state := { s with position := 0 }, input, sink }

/-- Count the instruction that is about to be carried out. -/
def tick (c : Config) : Config :=
  { c with state := { c.state with steps := c.state.steps + 1 } }

def goto (c : Config) (position : Int) : Config :=
  { c with state := { c.state with position } }

def next (c : Config) : Config :=
  { c with state := { c.state with position := c.state.position + 1 } }

/-- Move the pointer, round the end of the tape if need be. -/
def move (c : Config) (distance : Int) : Progress :=
  let size := c.state.tape.size
  if size = 0 then .failed .emptyTape c
  else
    let pointer := (c.state.pointer + distance) % size
    .running { c with state := { c.state with pointer } }.next

def modify (c : Config) (f : UInt8 → UInt8) : Progress :=
  match State.cellIndex c.state.tape.size c.state.pointer with
  | .error e => .failed e c
  | .ok i => .running { c with state := { c.state with tape := c.state.tape.modify i f } }.next

def write (c : Config) : Progress :=
  match c.state.cell with
  | .error e => .failed e c
  | .ok b =>
    let ⟨state, input, sink, missed⟩ := c
    match sink.put b with
    | (some f, sink) => .failed (.stream f) ⟨state, input, sink, missed⟩
    | (none, sink) =>
      let state := { state with bytesWritten := state.bytesWritten + 1 }
      .running (next ⟨state, input, sink, missed⟩)

/-- Read into the cell at the pointer; at the end of input it becomes zero. -/
def read (c : Config) : Progress :=
  let ⟨state, input, sink, missed⟩ := c
  let (reply, input) := input.read 1
  let missed := match reply.missed? with
    | none => missed
    | some f => missed.push f
  match reply.byte? with
  | .error e => .failed e ⟨state, input, sink, missed⟩
  | .ok b? =>
    match State.cellIndex state.tape.size state.pointer with
    | .error e => .failed e ⟨state, input, sink, missed⟩
    | .ok i =>
      .running (next ⟨state.receive i b?, input, sink, missed⟩)

/-- Jump past the partner of the bracket here if the cell at the pointer satisfies `taken`. An
empty slot leads back to the start of the program. -/
def branch (c : Config) (slots : Array (Option Int)) (taken : UInt8 → Bool) : Progress :=
  match c.state.cell with
  | .error e => .failed e c
  | .ok b =>
    if taken b then
      match Offset.index? slots.size c.state.position with
      | none => .failed .noJumpSlot c
      | some i =>
        match slots.getD i none with
        | none => .running (c.goto 0)
        | some partner => .running (c.goto (partner + 1))
    else .running c.next

end Config

namespace Image

/-- Carry out one instruction; a comment does nothing. -/
def perform (image : Image) (instruction : Option Command) (c : Config) : Progress :=
  match instruction with
  | none => .running c.next
  | some .right => c.move 1
  | some .left => c.move (-1)
  | some .increment => c.modify (· + 1)
  | some .decrement => c.modify (· - 1)
  | some .output => c.write
  | some .input => c.read
  | some .loopStart => c.branch image.jumps.ends (· == 0)
  | some .loopEnd => c.branch image.jumps.starts (· != 0)

/-- Carry out the instruction at the position, or stop beyond the end of the program. -/
def step (image : Image) (c : Config) : Progress :=
  if image.code.size ≤ c.state.position then .finished c
  else
    match Offset.index? image.code.size c.state.position with
    | none => .failed .noInstruction c
    | some i => image.perform (image.code.getD i none) c.tick

end Image

end Brainfuck
