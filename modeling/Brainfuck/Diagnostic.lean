import Brainfuck.Text.Numeral

/-! Messages about a program that cannot be run: a headline, a detail, an excerpt of the program
with a caret under the place, and a hint. -/

namespace Brainfuck

namespace Excerpt

/-- Marks that the program goes on beyond the excerpt. -/
def ellipsis : Text := List.replicate 3 (.ofChar '.')

def indent : Text := List.replicate 2 Text.blank

def defaultRadius : Int := 20

def first (position radius : Int) : Int := max 0 (position - radius)

/-- What stands before the excerpt around a position. -/
def before (position radius : Int) : Text :=
  if 0 < first position radius then ellipsis else []

/-- The column of a position in its excerpt, the indent apart. -/
def column (position radius : Int) : Int :=
  (before position radius).length + position - first position radius

/-- The part of the program within `radius` of a position, and a caret below the position. A caret
to the left of the first column stands in it. -/
def around (code : Text) (position radius : Int) : Text :=
  let last := min (code.length : Int) (position + radius + 1)
  let after := if last < code.length then ellipsis else []
  indent ++ before position radius ++ code.slice (first position radius) last ++ after ++
    [Text.newline] ++ indent ++ List.replicate (column position radius).toNat Text.blank ++
    [.ofChar '^']

end Excerpt

inductive Topic where
  | unclosedLoop
  | unopenedLoop
  | capacity
  deriving DecidableEq, Repr

def Topic.hint : Topic → Text
  | unclosedLoop => "Every '[' needs a matching ']' later in the program."
  | unopenedLoop =>
    "This ']' closes a loop that was never opened. Check for a missing '[' before it."
  | capacity => "Shorten the program or raise the limit with --program-max / BFI_PROGRAM_MAX."

structure Diagnostic where
  headline : Text
  detail : Text
  /-- An excerpt of the program, empty if there is none to show. -/
  excerpt : Text := []
  topic : Option Topic := none

/-- The lines of a diagnostic: headline, detail, excerpt, hint. -/
def Diagnostic.render (d : Diagnostic) : Text :=
  let body := if d.excerpt.isEmpty then [] else Text.newline :: d.excerpt
  let hint := match d.topic with
    | none => []
    | some t => Text.newline :: Text.ofString "Hint: " ++ t.hint
  d.headline ++ [Text.newline] ++ d.detail ++ body ++ hint

end Brainfuck
