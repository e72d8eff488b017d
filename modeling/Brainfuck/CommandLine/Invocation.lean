import Brainfuck.CommandLine.Argument
import Brainfuck.Settings

/-! What a command line asks for. The arguments are taken from left to right; the program is the
first operand, and a single argument that is left over when no operand was seen. -/

namespace Brainfuck.CommandLine

inductive Value where
  | number (n : Int)
  /-- What is left of a value that was taken for the separator. -/
  | nothing
  deriving DecidableEq, Repr

def Value.number? : Value → Option Int
  | number n => some n
  | nothing => none

/-- What a command line asks for, as far as it was read. -/
structure Invocation where
  tapeSize : Option Value := none
  programMax : Option Value := none
  strict : Bool := false
  verbose : Bool := false
  /-- The program text; without one the program comes from standard input. -/
  program : Option Text := none
  /-- Whether the place of the program is taken. -/
  placed : Bool := false
  /-- The arguments that found no use. -/
  extras : List Text := []
  deriving DecidableEq

inductive Stop where
  | help
  | usage (e : UsageError)
  /-- It fails without an explanation of its use. -/
  | failure (e : Error)
  deriving DecidableEq

namespace Invocation

def override (i : Invocation) : Override :=
  { programMax := i.programMax.bind Value.number?
    tapeSize := i.tapeSize.bind Value.number?
    strict := if i.strict then some true else none }

/-- Override settings. A limit set to nothing fails where its number would be looked at. -/
def settle (i : Invocation) (s : Settings) : Except Stop Settings :=
  if i.programMax = some .nothing then .error (.failure .noNumber)
  else
    match s.override i.override with
    | .error e => .error (.usage (.settings e))
    | .ok s => if i.tapeSize = some .nothing then .error (.failure .noNumber) else .ok s

def addExtra (i : Invocation) (t : Text) : Invocation :=
  { i with extras := i.extras ++ [t] }

/-- Take the place of the program, with or without a text. -/
def place (i : Invocation) (program : Option Text) : Invocation :=
  { i with program, placed := true }

def switch (i : Invocation) : Flag → Except Stop Invocation
  | .help => .error .help
  | .strict => .ok { i with strict := true }
  | .verbose => .ok { i with verbose := true }
  | .tapeSize | .programMax => .ok i

/-- The value that an argument spells. Two dashes are taken out of it like any other separator. -/
def value? (raw : Text) : Option Value :=
  if raw = Argument.doubleDash then some .nothing
  else (Numeral.parse? raw).map Value.number

def assign (i : Invocation) (f : Flag) (raw : Text) : Except Stop Invocation :=
  match value? raw with
  | none => .error (.usage (.notAnInteger f raw))
  | some v =>
    match f with
    | .tapeSize => .ok { i with tapeSize := some v }
    | .programMax => .ok { i with programMax := some v }
    | .help | .strict | .verbose => .ok i

/-- The options of a cluster: `f` and those whose letters follow it. A letter of no option makes the
whole cluster refused. -/
def cluster (f : Flag) : Text → Except UsageError (List Flag)
  | [] => .error (.unwantedValue f [])
  | c :: rest =>
    match Flag.ofLetter? c with
    | none => .error (.unwantedValue f (c :: rest))
    | some g => if rest.isEmpty then .ok [f, g] else (cluster g rest).map (f :: ·)

/-- Carry out an option with text attached to it. -/
def attach (i : Invocation) (f : Flag) (spelling : Spelling) (attached : Text) :
    Except Stop Invocation :=
  if f.takesValue then i.assign f attached
  else
    match spelling with
    | .long => .error (.usage (.unwantedValue f attached))
    | .short =>
      match cluster f attached with
      | .error e => .error (.usage e)
      | .ok fs => fs.foldlM switch i

/-- Take an argument, knowing the one that follows it. The flag of the answer tells whether the
following one was taken as well: as the value of an option, or together with the separator. -/
def take (i : Invocation) (a : Argument) (following : Option Argument) :
    Except Stop (Invocation × Bool) :=
  match a.role, following with
  | .unknown, _ => .ok (i.addExtra a.text, false)
  | .flag f spelling (some attached), _ => (i.attach f spelling attached).map (·, false)
  | .flag f _ none, following =>
    if ! f.takesValue then (i.switch f).map (·, false)
    else
      match following with
      | some ⟨value, .operand⟩ => (i.assign f value).map (·, true)
      | _ => .error (.usage (.missingValue f))
  | .separator, following =>
    if i.placed then .ok (i.addExtra a.text, false)
    else
      match following with
      | some ⟨program, .operand⟩ => .ok (i.place (some program), true)
      | _ => .ok (i.place none, false)
  | .operand, following =>
    if i.placed then .ok (i.addExtra a.text, false)
    else .ok (i.place (some a.text), (following.map Argument.role) == some .separator)

def consume : List Argument → Invocation → Except Stop Invocation
  | [], i => .ok i
  | [a], i => (i.take a none).map Prod.fst
  | a :: b :: rest, i =>
    match i.take a (some b) with
    | .error e => .error e
    | .ok (i, true) => consume rest i
    | .ok (i, false) => consume (b :: rest) i

/-- A single extra is the program if there is no other; any further extras are refused. -/
def adopt (i : Invocation) : Except Stop Invocation :=
  match i.program, i.extras with
  | _, [] => .ok i
  | none, [t] => .ok { i with program := some t, extras := [] }
  | _, extras => .error (.usage (.unrecognized extras))

def ofArguments (ts : List Text) : Except Stop Invocation := do
  let arguments ← (Argument.classify ts).mapError Stop.usage
  let i ← consume arguments {}
  i.adopt

end Invocation

end Brainfuck.CommandLine
