import Brainfuck.Text.Basic

/-! Two sets of whitespace: the one that may surround a numeral, and the wider one that makes
a setting blank. They differ in the four information separators U+001C to U+001F. -/

namespace Brainfuck

namespace CodePoint

/-- Whitespace that may surround a numeral. -/
def isSpace (c : CodePoint) : Bool :=
  let n := c.value
  (0x09 ≤ n && n ≤ 0x0D) || n == 0x20 || n == 0x85 || n == 0xA0 || n == 0x1680 ||
    (0x2000 ≤ n && n ≤ 0x200A) || n == 0x2028 || n == 0x2029 || n == 0x202F || n == 0x205F ||
    n == 0x3000

/-- Whitespace that may surround a word: the information separators count too. -/
def isWideSpace (c : CodePoint) : Bool :=
  c.isSpace || (0x1C ≤ c.value && c.value ≤ 0x1F)

end CodePoint

namespace Text

/-- A text without the code points at either end that satisfy `p`. -/
def trim (p : CodePoint → Bool) (t : Text) : Text :=
  ((t.dropWhile p).reverse.dropWhile p).reverse

def isBlank (t : Text) : Bool :=
  t.all CodePoint.isWideSpace

end Text

end Brainfuck
