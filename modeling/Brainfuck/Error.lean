import Brainfuck.Diagnostic
import Brainfuck.Settings.Name
import Brainfuck.Stream.Fault
import Brainfuck.Text.Quoted
import Brainfuck.Text.Utf8

/-! Why a program is rejected and why a run fails, with the wording of each cause. -/

namespace Brainfuck

/-- Why a program is rejected before it runs. -/
inductive Rejection where
  /-- The loop at `position` is never closed; `unclosed` loops are open at the end. -/
  | unclosedLoop (code : Text) (position unclosed : Int)
  /-- The loop end at `position` closes no loop. -/
  | unopenedLoop (code : Text) (position : Int)
  /-- There are more than `capacity` commands. -/
  | tooLong (capacity : Int)
  deriving DecidableEq

namespace Rejection

/-- Where the program is at fault, with the text around the place. -/
def place? : Rejection → Option (Int × Text)
  | unclosedLoop code position _ =>
    some (position, Excerpt.around code position Excerpt.defaultRadius)
  | unopenedLoop code position =>
    some (position, Excerpt.around code position Excerpt.defaultRadius)
  | tooLong _ => none

def detail : Rejection → Text
  | unclosedLoop _ position unclosed =>
    Text.ofString "'[' at position " ++ Numeral.ofInt position ++
      Text.ofString " is never closed" ++
      if 1 < unclosed then
        Text.ofString " (" ++ Numeral.ofInt unclosed ++ Text.ofString " unclosed brackets)"
      else []
  | unopenedLoop _ position =>
    Text.ofString "']' at position " ++ Numeral.ofInt position ++
      Text.ofString " has no opening '['"
  | tooLong capacity =>
    Text.ofString "more than " ++ Numeral.ofInt capacity ++
      Text.ofString " instructions after sanitization"

def topic : Rejection → Topic
  | unclosedLoop .. => .unclosedLoop
  | unopenedLoop .. => .unopenedLoop
  | tooLong _ => .capacity

def headline : Rejection → Text
  | unclosedLoop .. => "Error: unmatched '['"
  | unopenedLoop .. => "Error: unmatched ']'"
  | tooLong _ => "Error: program too large"

def message (r : Rejection) : Text :=
  Diagnostic.render {
    headline := r.headline
    detail := r.detail
    excerpt := (r.place?.map Prod.snd).getD []
    topic := some r.topic }

end Rejection

/-- Why an operation fails. -/
inductive Error where
  | rejected (r : Rejection)
  | notPositive (limit : Limit) (value : Int)
  | notAnInteger (name : Variable) (raw : Text)
  | tapeTooLarge
  | emptyTape
  | pointerOutside
  /-- The pointer is too large to be a position at all. -/
  | pointerTooWide
  /-- The jump table has no slot for a bracket. -/
  | noJumpSlot
  /-- The program has no instruction at the position a jump led to. -/
  | noInstruction
  | columnTooWide
  /-- There is no room for a tape or a line. -/
  | outOfMemory
  /-- A limit was set to something else than a number. -/
  | noNumber
  /-- One read delivered several characters at once. -/
  | manyCharacters (count : Nat)
  | surrogates (run : SurrogateRun)
  | stream (f : Fault)
  deriving DecidableEq

namespace Error

def surrogatesMessage (run : SurrogateRun) : Text :=
  let place := match run.rest with
    | [] => Text.ofString "character '" ++ Quoted.escapeHidden run.first ++
        Text.ofString "' in position " ++ Numeral.ofNat run.start
    | rest => Text.ofString "characters in position " ++ Numeral.ofNat run.start ++
        Text.ofString "-" ++ Numeral.ofNat (run.start + rest.length)
  Text.ofString "'utf-8' codec can't encode " ++ place ++
    Text.ofString ": surrogates not allowed"

def message : Error → Text
  | rejected r => r.message
  | notPositive limit value =>
    limit.name ++ Text.ofString " must be positive, got " ++ Numeral.ofInt value
  | notAnInteger name raw =>
    name.name ++ Text.ofString " must be an integer, got " ++ Quoted.ofText raw
  | tapeTooLarge => "cannot fit 'int' into an index-sized integer"
  | emptyTape => "integer modulo by zero"
  | pointerOutside => "bytearray index out of range"
  | pointerTooWide => "cannot fit 'int' into an index-sized integer"
  | noJumpSlot => "list index out of range"
  | noInstruction => "string index out of range"
  | columnTooWide => "cannot fit 'int' into an index-sized integer"
  | outOfMemory => ""
  | noNumber => "'<=' not supported between instances of 'list' and 'int'"
  | manyCharacters count =>
    Text.ofString "ord() expected a character, but string of length " ++ Numeral.ofNat count ++
      Text.ofString " found"
  | surrogates run => surrogatesMessage run
  | stream f => f.message

end Error

end Brainfuck
