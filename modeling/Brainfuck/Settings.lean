import Brainfuck.Error
import Brainfuck.Machine.State

/-! Settings of a run: defaults, what the environment says, and what overrides it. -/

namespace Brainfuck

structure Settings where
  programMax : Int := 65536
  tapeSize : Int := State.defaultTapeSize
  strict : Bool := false
  deriving DecidableEq

structure Override where
  programMax : Option Int := none
  tapeSize : Option Int := none
  strict : Option Bool := none
  deriving DecidableEq

/-- The values of the environment variables that are set. -/
abbrev Environment := Variable → Option Text

namespace Environment

/-- The integer a variable holds, or `default` if it is unset or blank. -/
def integer (env : Environment) (name : Variable) (default : Int) : Except Error Int :=
  match env name with
  | none => .ok default
  | some raw =>
    if raw.isBlank then .ok default
    else
      match Numeral.parse? raw with
      | some n => .ok n
      | none => .error (.notAnInteger name raw)

/-- A code point with a capital ASCII letter made small. -/
def lower (c : CodePoint) : CodePoint :=
  if 0x41 ≤ c.value ∧ c.value ≤ 0x5A then (CodePoint.ofNat? (c.value + 0x20)).getD c else c

def affirmatives : List Text := [
  Text.ofString "1", Text.ofString "true", Text.ofString "yes", Text.ofString "on"]

/-- Whether a variable holds one of the affirmative words, in capitals or not. -/
def isOn (env : Environment) (name : Variable) : Bool :=
  affirmatives.contains ((((env name).getD []).trim CodePoint.isWideSpace).map lower)

end Environment

namespace Settings

/-- The settings, if both limits are positive. -/
def validate (s : Settings) : Except Error Settings :=
  if s.programMax ≤ 0 then .error (.notPositive .programMax s.programMax)
  else if s.tapeSize ≤ 0 then .error (.notPositive .tapeSize s.tapeSize)
  else .ok s

def override (s : Settings) (o : Override) : Except Error Settings :=
  validate {
    programMax := o.programMax.getD s.programMax
    tapeSize := o.tapeSize.getD s.tapeSize
    strict := o.strict.getD s.strict }

def ofEnvironment (env : Environment) : Except Error Settings := do
  let defaults : Settings := {}
  let programMax ← env.integer .programMax defaults.programMax
  let tapeSize ← env.integer .tapeSize defaults.tapeSize
  validate { programMax, tapeSize, strict := env.isOn .strict }

end Settings

end Brainfuck
