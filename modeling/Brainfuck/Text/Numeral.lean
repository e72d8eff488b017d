import Brainfuck.Text.Digit
import Brainfuck.Text.Space

/-! Decimal numerals, written and read. A numeral that is read may be surrounded by whitespace,
have one sign, use the digits of any script and group them by single underscores. -/

namespace Brainfuck.Numeral

def ofNat (n : Nat) : Text :=
  (Nat.toDigits 10 n).map CodePoint.ofChar

/-- The decimal form of an integer, with a sign only if it is negative. -/
def ofInt : Int → Text
  | .ofNat n => ofNat n
  | .negSucc n => .ofChar '-' :: ofNat (n + 1)

/-- The most digits a numeral may have; leading zeros count. -/
def maxDigits : Nat := 4300

/-- The digits of a nonempty digit sequence in which single underscores may stand between
digits. -/
def digits? : Text → Option (List Nat)
  | [] => none
  | c :: rest =>
    match c.digit?, rest with
    | none, _ => none
    | some d, [] => some [d]
    | some d, c' :: rest' =>
      if c' = .ofChar '_' then (digits? rest').map (d :: ·)
      else (digits? (c' :: rest')).map (d :: ·)

/-- The number that digits spell, the most significant first. -/
def value (ds : List Nat) : Nat :=
  ds.foldl (fun n d => 10 * n + d) 0

def natural? (t : Text) : Option Nat :=
  match digits? t with
  | none => none
  | some ds => if ds.length ≤ maxDigits then some (value ds) else none

def signed? : Text → Option Int
  | [] => none
  | c :: rest =>
    if c = .ofChar '-' then (natural? rest).map fun n => -(n : Int)
    else if c = .ofChar '+' then (natural? rest).map Int.ofNat
    else (natural? (c :: rest)).map Int.ofNat

/-- The integer a numeral denotes, whitespace around it ignored. -/
def parse? (t : Text) : Option Int :=
  signed? (t.trim CodePoint.isSpace)

end Brainfuck.Numeral
