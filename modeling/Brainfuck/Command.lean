import Brainfuck.Text.Basic

/-! The eight commands. Every other character of a program is a comment. -/

namespace Brainfuck

inductive Command where
  | right
  | left
  | increment
  | decrement
  | output
  | input
  /-- Start a loop: skip it if the cell is zero. -/
  | loopStart
  /-- End a loop: go round again unless the cell is zero. -/
  | loopEnd
  deriving DecidableEq, Repr

namespace Command

def char : Command → Char
  | right => '>'
  | left => '<'
  | increment => '+'
  | decrement => '-'
  | output => '.'
  | input => ','
  | loopStart => '['
  | loopEnd => ']'

def all : List Command :=
  [right, left, increment, decrement, output, input, loopStart, loopEnd]

def codePoint (c : Command) : CodePoint := .ofChar c.char

/-- The command with a given character number. -/
def ofNat? : Nat → Option Command
  | 0x3E => some right
  | 0x3C => some left
  | 0x2B => some increment
  | 0x2D => some decrement
  | 0x2E => some output
  | 0x2C => some input
  | 0x5B => some loopStart
  | 0x5D => some loopEnd
  | _ => none

def ofCodePoint? (c : CodePoint) : Option Command := ofNat? c.value

def ofByte? (b : UInt8) : Option Command := ofNat? b.toNat

/-- Whether a number is the character number of a command. -/
def isCode (n : Int) : Bool :=
  0 ≤ n && (ofNat? n.toNat).isSome

/-- Whether a text is a single command. -/
def isText : Text → Bool
  | [c] => (ofCodePoint? c).isSome
  | _ => false

@[simp]
theorem ofNat?_char (c : Command) : ofNat? c.char.toNat = some c := by
  cases c <;> rfl

@[simp]
theorem ofCodePoint?_codePoint (c : Command) : ofCodePoint? c.codePoint = some c :=
  ofNat?_char c

theorem eq_codePoint_of_ofCodePoint? {p : CodePoint} {c : Command} (h : ofCodePoint? p = some c) :
    p = c.codePoint := by
  apply CodePoint.ext_value
  simp only [ofCodePoint?, ofNat?] at h
  split at h <;> simp_all <;> subst h <;> rfl

end Command

def Text.ofCommands (cs : List Command) : Text :=
  cs.map Command.codePoint

end Brainfuck
