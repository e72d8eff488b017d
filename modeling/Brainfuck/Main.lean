import Brainfuck.CommandLine.Run

/-! The command-line program: it joins the command line to the standard streams of the system.
Input is read only when a program asks for it, and output is passed on byte by byte. -/

namespace Brainfuck.Console

open CommandLine

def environment : IO Environment := do
  let read (v : Variable) : IO (Option Text) := do
    let name := String.ofList (v.name.map fun c => Char.ofNat c.value)
    return (← IO.getEnv name).map Text.ofString
  let programMax ← read .programMax
  let tapeSize ← read .tapeSize
  let strict ← read .strict
  return fun
    | .programMax => programMax
    | .tapeSize => tapeSize
    | .strict => strict

def bytes (t : Text) : ByteArray := ⟨t.utf8.toArray⟩

def faultOf (e : IO.Error) : Fault :=
  let kind := match e with
    | .resourceVanished .. => .brokenPipe
    | _ => .device
  ⟨kind, Text.ofString (toString e)⟩

/-- The answer of a stream of the system to a request for `n` bytes. -/
def request (stdin : IO.FS.Stream) (n : USize) : IO Reply := do
  try
    return .data (.bytes (← stdin.read n).toList)
  catch e =>
    return .fault (faultOf e)

/-- The replies of standard input up to the one that gives a collector enough. -/
partial def gather (stdin : IO.FS.Stream) (c : Collector) (replies : Array Reply) :
    IO (List Reply) := do
  let reply ← request stdin Collector.defaultChunk.toNat.toUSize
  match c.intake reply with
  | (some _, _) => return (replies.push reply).toList
  | (none, c) => gather stdin c (replies.push reply)

/-- Collect the program, reading as much of standard input as it takes. -/
def collectFrom (stdin : IO.FS.Stream) (program? : Option Text) (settings : Settings) :
    IO (Except Error Program × Origin × Input) := do
  let replies ← match program?, Collector.new settings.programMax settings.strict with
    | none, .ok c => gather stdin c #[]
    | _, _ => pure []
  return collect program? settings (.script replies)

/-- Pass on what the program has written. -/
def passOn (stdout : IO.FS.Stream) (c : Config) : IO (Option Fault × Config) := do
  if c.sink.written.isEmpty then return (none, c)
  let emptied := { c with sink := { c.sink with written := #[] } }
  try
    stdout.write ⟨c.sink.written⟩
    stdout.flush
    return (none, emptied)
  catch e =>
    return (some (faultOf e), emptied)

/-- Run a program to its end, one instruction at a time. -/
partial def drive (stdin stdout : IO.FS.Stream) (image : Image) (c : Config) : IO Outcome := do
  let instruction := (image.code[c.state.position.toNat]?).join
  let c ← if instruction = some .input then
      pure { c with input := .script [← request stdin 1] }
    else pure c
  match image.step c with
  | .finished c => return ⟨none, c⟩
  | .failed e c => return ⟨some e, c⟩
  | .running c =>
    match ← passOn stdout c with
    | (some f, c) => return ⟨some (.stream f), c⟩
    | (none, c) => drive stdin stdout image c

/-- Show what a call leaves behind and give the exit status. -/
def finish (stdout stderr : IO.FS.Stream) (r : Result) : IO UInt32 := do
  stdout.write ⟨r.stdout.written⟩
  stderr.write (bytes r.stderr)
  match r.ending.status with
  | .ok n => return n.toUInt32
  | .error e =>
    stderr.write (bytes (e.message ++ [Text.newline]))
    return 1

/-- The memory of the system cannot be asked for its size: a tape beyond this one is refused without
an attempt to make it. -/
def memory : Memory := .upTo 0x10000000000

/-- Call the command line with the streams of the system. -/
def call (arguments : List Text) : IO UInt32 := do
  let stdin ← IO.getStdin
  let stdout ← IO.getStdout
  let stderr ← IO.getStderr
  let surroundings : Surroundings := {
    environment := ← environment, stdin := .script [], stdout := {}, memory }
  match planned arguments surroundings with
  | .error r => finish stdout stderr r
  | .ok (i, settings) =>
    match ready surroundings i settings (← collectFrom stdin i.program settings) with
    | .error r => finish stdout stderr r
    | .ok session =>
      let outcome ← drive stdin stdout session.execution.image session.execution.config
      finish stdout stderr (conclude session outcome)

end Brainfuck.Console

def main (arguments : List String) : IO UInt32 :=
  Brainfuck.Console.call (arguments.map Brainfuck.Text.ofString)
