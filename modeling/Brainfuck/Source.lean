import Brainfuck.Command
import Brainfuck.Text.Utf8

/-! Program text as it arrives, as bytes or as text. Its commands are found in its bytes. -/

namespace Brainfuck

inductive Source where
  | bytes (bs : List UInt8)
  | text (t : Text)
  deriving DecidableEq

namespace Source

/-- The number of elements: bytes, or code points. -/
def length : Source → Nat
  | bytes bs => bs.length
  | text t => t.length

def isEmpty (s : Source) : Bool := s.length == 0

def take (n : Nat) : Source → Source
  | bytes bs => bytes (bs.take n)
  | text t => text (t.take n)

def drop (n : Nat) : Source → Source
  | bytes bs => bytes (bs.drop n)
  | text t => text (t.drop n)

/-- The bytes of a source; text is encoded in UTF-8. -/
def toBytes : Source → List UInt8
  | bytes bs => bs
  | text t => t.utf8

/-- The commands of a source, in order, with all comments dropped. -/
def commands (s : Source) : List Command :=
  s.toBytes.filterMap Command.ofByte?

theorem length_take (n : Nat) (s : Source) : (s.take n).length = min n s.length := by
  cases s <;> simp [take, length]

theorem length_drop (n : Nat) (s : Source) : (s.drop n).length = s.length - n := by
  cases s <;> simp [drop, length]

end Source

end Brainfuck
