import Brainfuck.CommandLine.Invocation
import Brainfuck.CommandLine.Journal
import Brainfuck.CommandLine.Manual
import Brainfuck.Run

/-! The command line as a whole: from arguments, environment and standard streams to an exit
status. The program and its input share standard input. -/

namespace Brainfuck.CommandLine

/-- What surrounds a call of the command line. -/
structure Surroundings where
  environment : Environment
  stdin : Input
  stdout : Sink
  memory : Memory
  /-- What comes of the attempt to send standard output to the null device: the fault if the device
  cannot be opened or the stream has no descriptor, and `none` if it succeeds. -/
  redirection : Option Fault := none
  /-- The name under which the command line itself reports. -/
  console : Text := Text.ofString "bfi.cli"

inductive Ending where
  | returned (status : Nat)
  | exited (status : Nat)
  /-- An error that nobody handled. -/
  | failed (e : Error)
  deriving DecidableEq

/-- The exit status of a process that ends so, or the error that ends it. -/
def Ending.status : Ending → Except Error Nat
  | returned status | exited status => .ok status
  | failed e => .error e

structure Result where
  ending : Ending
  stdin : Input
  stdout : Sink
  stderr : Text := []

/-- A program that is about to run. -/
structure Session where
  execution : Execution
  verbose : Bool
  console : Text
  redirection : Option Fault
  events : List Event

/-- Print the help text in one piece. If standard output fails, its failure is the end of the
call. -/
def printHelp (s : Surroundings) : Result :=
  match s.stdout.write Manual.help.utf8 with
  | (none, stdout) => { ending := .exited 0, stdin := s.stdin, stdout }
  | (some f, stdout) => { ending := .failed (.stream f), stdin := s.stdin, stdout }

def refuse (s : Surroundings) (e : UsageError) : Result :=
  { ending := .exited 2, stdin := s.stdin, stdout := s.stdout, stderr := Manual.refusal e }

/-- Collect the program: from the command line, or from standard input. -/
def collect (program? : Option Text) (settings : Settings) (stdin : Input) :
    Except Error Program × Origin × Input :=
  match program? with
  | some t => ((Source.text t).program settings.programMax settings.strict, .argument, stdin)
  | none =>
    let (result, rest) :=
      stdin.program settings.programMax settings.strict Collector.defaultChunk
    (result, .stream, rest)

/-- Stop before the program runs. A program that is rejected makes status 1. -/
def abandon (e : Error) (stdin : Input) (stdout : Sink) (log : Text) : Result :=
  match e with
  | .rejected r =>
    { ending := .returned 1, stdin, stdout, stderr := log ++ r.message ++ [Text.newline] }
  | e => { ending := .failed e, stdin, stdout, stderr := log }

/-- What the arguments and the environment together ask for. -/
def plan (arguments : List Text) (environment : Environment) :
    Except Stop (Invocation × Settings) :=
  match Invocation.ofArguments arguments with
  | .error stop => .error stop
  | .ok i =>
    match Settings.ofEnvironment environment with
    | .error e => .error (.usage (.settings e))
    | .ok settings => (i.settle settings).map (i, ·)

/-- The invocation and its settings, unless the call ends with them. -/
def planned (arguments : List Text) (s : Surroundings) : Except Result (Invocation × Settings) :=
  match plan arguments s.environment with
  | .error .help => .error (printHelp s)
  | .error (.usage e) => .error (refuse s e)
  | .error (.failure e) => .error (abandon e s.stdin s.stdout [])
  | .ok p => .ok p

/-- Make what was collected ready to run on a new machine. -/
def ready (s : Surroundings) (i : Invocation) (settings : Settings) :
    Except Error Program × Origin × Input → Except Result Session
  | (.error e, _, stdin) => .error (abandon e stdin s.stdout [])
  | (.ok program, origin, stdin) =>
    let log := journal i.verbose s.console
    let collected := Event.ofProgram program origin
    match JumpTable.resolve program.text with
    | .error r => .error (abandon (.rejected r) stdin s.stdout (log collected))
    | .ok jumps =>
      let events := collected ++ [.resolved jumps.pairs] ++ Event.ofShortened program
      match Execution.start s.memory program.text (some jumps) none settings.tapeSize stdin
        s.stdout with
      | .error e => .error (abandon e stdin s.stdout (log events))
      | .ok execution => .ok {
          execution, verbose := i.verbose, console := s.console, redirection := s.redirection
          events }

/-- Everything up to the first instruction of the program. -/
def prepare (arguments : List Text) (s : Surroundings) : Except Result Session :=
  match planned arguments s with
  | .error r => .error r
  | .ok (i, settings) => ready s i settings (collect i.program settings s.stdin)

/-- The end of a call whose output nobody reads any more. Standard output goes to the null device
from then on; if it cannot be sent there, that failure is what ends the call. -/
def Session.silence (s : Session) : Ending :=
  match s.redirection with
  | none => .returned 1
  | some f => .failed (.stream f)

/-- The result of a run that has ended. -/
def conclude (s : Session) (o : Outcome) : Result :=
  let c := o.final
  let events := s.events ++ c.missed.toList.map Event.missed
  let (ending, last) : Ending × List Event := match o.error? with
    | none => (.returned 0, [.finished c.state])
    | some (.stream f) =>
      if f.isBrokenPipe then (s.silence, [.outputClosed]) else (.failed (.stream f), [])
    | some e => (.failed e, [])
  { ending, stdin := c.input, stdout := c.sink
    stderr := journal s.verbose s.console (events ++ last) }

/-- Call the command line. The program runs for at most `budget` steps. -/
def run (budget : Nat) (arguments : List Text) (s : Surroundings) : Option Result :=
  match prepare arguments s with
  | .error r => some r
  | .ok session => (session.execution.run budget).map (conclude session)

end Brainfuck.CommandLine
