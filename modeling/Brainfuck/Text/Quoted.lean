import Brainfuck.Text.Printable

/-! Text in quotes, as messages show a value they complain about. -/

namespace Brainfuck.Quoted

def backslash : CodePoint := .ofChar '\\'

def single : CodePoint := .ofChar '\''

def double : CodePoint := .ofChar '"'

/-- Lower-case hexadecimal digits, padded with zeros to `width`. -/
def hex (width n : Nat) : Text :=
  let ds := (Nat.toDigits 16 n).map CodePoint.ofChar
  List.replicate (width - ds.length) (.ofChar '0') ++ ds

/-- The escape of a code point that is not shown as it is, in the shortest of three widths. -/
def escapeHidden (c : CodePoint) : Text :=
  if c.value < 0x100 then backslash :: .ofChar 'x' :: hex 2 c.value
  else if c.value < 0x10000 then backslash :: .ofChar 'u' :: hex 4 c.value
  else backslash :: .ofChar 'U' :: hex 8 c.value

/-- A code point between quotes `q`. -/
def escape (q c : CodePoint) : Text :=
  if c = q ∨ c = backslash then [backslash, c]
  else if c = .ofChar '\n' then [backslash, .ofChar 'n']
  else if c = .ofChar '\r' then [backslash, .ofChar 'r']
  else if c = .ofChar '\t' then [backslash, .ofChar 't']
  else if c.isPrintable then [c]
  else escapeHidden c

/-- Apostrophes quote a text, unless it has apostrophes and no quotation mark. -/
def mark (t : Text) : CodePoint :=
  if single ∈ t ∧ double ∉ t then double else single

def ofText (t : Text) : Text :=
  let q := mark t
  q :: t.flatMap (escape q) ++ [q]

end Brainfuck.Quoted
