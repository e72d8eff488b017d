import Brainfuck.CommandLine.UsageError
import Brainfuck.Text.Digit

/-! What the single arguments of a command line are. A Brainfuck program may look like an option,
so an argument that starts with a dash and fits no option stays undecided. -/

namespace Brainfuck.CommandLine

inductive Role where
  | separator
  | operand
  /-- An option by one of its names, with the text attached to it, if any. -/
  | flag (f : Flag) (spelling : Spelling) (attached : Option Text)
  /-- It looks like an option and is none. -/
  | unknown
  deriving DecidableEq

structure Argument where
  text : Text
  role : Role
  deriving DecidableEq

namespace Argument

def equals : CodePoint := .ofChar '='

/-- The argument that separates options from operands. -/
def doubleDash : Text := [Flag.dash, Flag.dash]

/-- The text before the first equals sign and the text after it, if there is one. -/
def splitValue (t : Text) : Text × Option Text :=
  (t.takeWhile (· != equals),
    match t.dropWhile (· != equals) with
    | [] => none
    | _ :: value => some value)

/-- A nonempty run of digits, possibly before a final line feed. -/
def isDigits (t : Text) : Bool :=
  let ds := if t.getLast? = some Text.newline then t.dropLast else t
  ! ds.isEmpty && ds.all CodePoint.isDigit

/-- The text after a dash spells a number: digits, or a decimal point before digits with or
without digits before it. -/
def isNumber (t : Text) : Bool :=
  isDigits t ||
    match t.dropWhile CodePoint.isDigit with
    | [] => false
    | c :: fraction => c == .ofChar '.' && isDigits fraction

/-- An argument that starts with a dash and is no name of an option. -/
def roleOfDashed (t rest : Text) : Except UsageError Role :=
  let (name, value) := splitValue t
  match value, Flag.named? name with
  | some v, some (f, spelling) => .ok (.flag f spelling (some v))
  | _, _ =>
    let candidates := match rest with
      | [] => []
      | c :: attached =>
        if c = Flag.dash then (Flag.completions name).map (·, Spelling.long, value)
        else (Flag.ofLetter? c).toList.map (·, Spelling.short, some attached)
    match candidates with
    | [(f, spelling, attached)] => .ok (.flag f spelling attached)
    | [] =>
      .ok (if isNumber rest ∨ Text.blank ∈ t then .operand else .unknown)
    | several => .error (.ambiguous t (several.map Prod.fst))

/-- The role of an argument that may be an option. -/
def roleOf (t : Text) : Except UsageError Role :=
  match t with
  | [] => .ok .operand
  | c :: rest =>
    if c ≠ Flag.dash then .ok .operand
    else
      match Flag.named? t with
      | some (f, spelling) => .ok (.flag f spelling none)
      | none => if rest.isEmpty then .ok .operand else roleOfDashed t rest

/-- The roles of all arguments: after the first two dashes all are operands. -/
def classify : List Text → Except UsageError (List Argument)
  | [] => .ok []
  | t :: ts =>
    if t = doubleDash then .ok (⟨t, .separator⟩ :: ts.map (⟨·, .operand⟩))
    else do
      let role ← roleOf t
      let rest ← classify ts
      return ⟨t, role⟩ :: rest

end Argument

end Brainfuck.CommandLine
