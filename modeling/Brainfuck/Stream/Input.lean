import Brainfuck.Offset
import Brainfuck.Source
import Brainfuck.Stream.Fault

/-! Input streams. A stream is held in memory, or closed, or scripted: a scripted stream answers
each request with its next prepared reply, whatever the size asked for, and records the sizes. -/

namespace Brainfuck

inductive Reply where
  | data (s : Source)
  | nothing
  | fault (f : Fault)
  deriving DecidableEq

inductive Input where
  /-- The unread part of a stream in memory. -/
  | memory (unread : Source)
  /-- A closed stream in memory; `textual` if it held text. -/
  | closed (textual : Bool)
  /-- The replies still to come, how many were given, and the size of every request. -/
  | scripted (replies : List Reply) (used : Nat) (requests : Array Nat)
  deriving DecidableEq

namespace Input

def oversize : Fault :=
  ⟨.oversize, Text.ofString "cannot fit 'int' into an index-sized integer"⟩

def closedFault (textual : Bool) : Fault :=
  ⟨.refused, Text.ofString
    (if textual then "I/O operation on closed file" else "I/O operation on closed file.")⟩

def script (replies : List Reply) : Input := .scripted replies 0 #[]

/-- Ask for `n` elements. Data in memory is delivered as far as it reaches; a script that is used
up delivers no bytes. -/
def read (n : Nat) : Input → Reply × Input
  | memory unread =>
    if Offset.isWide n then (.fault oversize, memory unread)
    else (.data (unread.take n), memory (unread.drop n))
  | closed textual =>
    if Offset.isWide n then (.fault oversize, closed textual)
    else (.fault (closedFault textual), closed textual)
  | scripted [] used requests => (.data (.bytes []), scripted [] used (requests.push n))
  | scripted (r :: rs) used requests => (r, scripted rs (used + 1) (requests.push n))

/-- How many elements or replies a stream still holds. -/
def remaining : Input → Nat
  | memory unread => unread.length
  | closed _ => 0
  | scripted replies _ _ => replies.length

/-- A read that delivers data uses up part of the stream. -/
theorem remaining_read_lt {n : Nat} {i j : Input} {s : Source} (h : i.read n = (.data s, j))
    (hs : s.isEmpty = false) : j.remaining < i.remaining := by
  cases i with
  | memory unread =>
    simp only [read] at h
    split at h
    · simp at h
    · obtain ⟨h₁, rfl⟩ := Prod.mk.inj h
      obtain rfl := Reply.data.inj h₁
      simp only [Source.isEmpty, Source.length_take, beq_eq_false_iff_ne, ne_eq] at hs
      simp only [remaining, Source.length_drop]
      omega
  | closed textual =>
    simp only [read] at h
    split at h <;> simp at h
  | scripted replies used requests =>
    cases replies with
    | nil =>
      obtain ⟨h₁, rfl⟩ := Prod.mk.inj h
      obtain rfl := Reply.data.inj h₁
      simp [Source.isEmpty, Source.length] at hs
    | cons r rs =>
      obtain ⟨_, rfl⟩ := Prod.mk.inj h
      simp [remaining]

end Input

end Brainfuck
