/-! Text as a list of code points. Program text and command-line arguments may carry lone
surrogates, so the elements are all of Unicode's code points and not only its characters.
Positions and lengths count code points. -/

namespace Brainfuck

/-- A Unicode code point, surrogates included. -/
structure CodePoint where
  value : Nat
  value_lt : value < 0x110000
  deriving DecidableEq

/-- Text, by code points. -/
abbrev Text := List CodePoint

namespace CodePoint

def ofChar (c : Char) : CodePoint :=
  ⟨c.toNat, by
    have h : c.val.toNat.isValidChar := c.valid
    simp only [Nat.isValidChar] at h
    simp only [Char.toNat]
    omega⟩

/-- The code point with a given number, if there is one. -/
def ofNat? (n : Nat) : Option CodePoint :=
  if h : n < 0x110000 then some ⟨n, h⟩ else none

/-- The code points that stand for no character. -/
def isSurrogate (c : CodePoint) : Bool :=
  0xD800 ≤ c.value && c.value ≤ 0xDFFF

@[simp]
theorem value_ofChar (c : Char) : (ofChar c).value = c.toNat := rfl

theorem ext_value {c d : CodePoint} (h : c.value = d.value) : c = d := by
  cases c
  cases d
  simp_all

end CodePoint

namespace Text

def ofString (s : String) : Text :=
  s.toList.map CodePoint.ofChar

instance : Coe String Text := ⟨ofString⟩

def newline : CodePoint := .ofChar '\n'

def blank : CodePoint := .ofChar ' '

/-- Where a slice bound falls in a text of `size` code points: a negative bound counts from the
end, and a bound outside the text falls on its nearer end. -/
def bound (size : Nat) (b : Int) : Nat :=
  if b < 0 then (size + b).toNat else min size b.toNat

/-- The part of a text from bound `a` up to bound `b`, empty if they cross. -/
def slice (t : Text) (a b : Int) : Text :=
  (t.take (bound t.length b)).drop (bound t.length a)

/-- Texts one after the other, with `sep` between neighbours. -/
def join (sep : Text) (ts : List Text) : Text :=
  sep.intercalate ts

end Text

end Brainfuck
