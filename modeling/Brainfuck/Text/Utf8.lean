import Brainfuck.Text.Basic

/-! The UTF-8 bytes of a text. A lone surrogate has a three-byte form like its neighbours;
`encodeStrict` refuses it instead, and reports the first run of surrogates. -/

namespace Brainfuck

/-- The UTF-8 form of a code point, one to four bytes. A byte after the first carries six bits,
those worth `unit` and more. -/
def CodePoint.utf8 (c : CodePoint) : List UInt8 :=
  let n := c.value
  let trail (unit : Nat) : UInt8 := .ofNat (0x80 + n / unit % 0x40)
  if n < 0x80 then [.ofNat n]
  else if n < 0x800 then [.ofNat (0xC0 + n / 0x40), trail 1]
  else if n < 0x10000 then [.ofNat (0xE0 + n / 0x1000), trail 0x40, trail 1]
  else [.ofNat (0xF0 + n / 0x40000), trail 0x1000, trail 0x40, trail 1]

/-- Consecutive surrogates in a text: the position of the first, and all of them. -/
structure SurrogateRun where
  start : Nat
  first : CodePoint
  rest : Text
  deriving DecidableEq

namespace Text

/-- The UTF-8 bytes of a text, surrogates in their three-byte form. -/
def utf8 (t : Text) : List UInt8 :=
  t.flatMap CodePoint.utf8

/-- The first maximal run of surrogates. -/
def firstSurrogates? (t : Text) : Option SurrogateRun :=
  match t.dropWhile (! ·.isSurrogate) with
  | [] => none
  | c :: rest =>
    some ⟨(t.takeWhile (! ·.isSurrogate)).length, c, rest.takeWhile (·.isSurrogate)⟩

/-- The UTF-8 bytes of a text of characters. -/
def encodeStrict (t : Text) : Except SurrogateRun (List UInt8) :=
  match t.firstSurrogates? with
  | none => .ok t.utf8
  | some run => .error run

end Text

end Brainfuck
