import Brainfuck.Collector
import Brainfuck.Stream.Input

/-! Collecting a program from a stream, chunk by chunk. Reading stops at the end of the stream or
as soon as the collector is full, so what follows the program stays unread; a strict collector
reads on to the end, to see that nothing more comes. -/

namespace Brainfuck

namespace Collector

def defaultChunk : Int := 4096

/-- Take what a stream replied. There is a result once no more is to be read: the stream has ended
or failed, or the collector has enough. -/
def intake (c : Collector) : Reply → Option (Except Error Unit) × Collector
  | .fault f => (some (.error (.stream f)), c)
  | .nothing => (some (.ok ()), c)
  | .data piece =>
    if piece.isEmpty then (some (.ok ()), c)
    else
      match c.feed piece with
      | (.error e, c) => (some (.error e), c)
      | (.ok more, c) => (if more || c.strict then none else some (.ok ()), c)

/-- Only data that is not empty calls for more. -/
theorem exists_of_intake {c c' : Collector} {reply : Reply} (h : c.intake reply = (none, c')) :
    ∃ piece, reply = .data piece ∧ piece.isEmpty = false := by
  cases reply with
  | fault f => cases h
  | nothing => cases h
  | data piece =>
    refine ⟨piece, rfl, ?_⟩
    cases hs : piece.isEmpty with
    | false => rfl
    | true =>
      rw [intake, if_pos hs] at h
      cases h

/-- Take chunks of size `chunk` until the stream ends or the collector has enough, and hand back
the rest of the stream. -/
def drain (chunk : Nat) (c : Collector) (i : Input) : Except Error Collector × Input :=
  match h : i.read chunk with
  | (reply, rest) =>
    match hc : c.intake reply with
    | (some result, c') => (result.map fun _ => c', rest)
    | (none, c') =>
      have : rest.remaining < i.remaining := by
        obtain ⟨piece, rfl, hs⟩ := exists_of_intake hc
        exact Input.remaining_read_lt h hs
      drain chunk c' rest
  termination_by i.remaining

theorem drain_eq (chunk : Nat) (c : Collector) (i : Input) :
    c.drain chunk i =
      match c.intake (i.read chunk).1 with
      | (some result, c') => (result.map fun _ => c', (i.read chunk).2)
      | (none, c') => c'.drain chunk (i.read chunk).2 := by
  rw [drain]
  split
  split <;> simp_all

end Collector

/-- The program that a stream delivers, and the rest of the stream. -/
def Input.program (i : Input) (capacity : Int) (strict : Bool) (chunk : Int) :
    Except Error Program × Input :=
  if chunk ≤ 0 then (.error (.notPositive .chunkSize chunk), i)
  else
    match Collector.new capacity strict with
    | .error e => (.error e, i)
    | .ok c =>
      let (result, rest) := c.drain chunk.toNat i
      (result.map Collector.program, rest)

end Brainfuck
