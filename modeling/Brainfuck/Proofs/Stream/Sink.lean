import Brainfuck.Stream.Sink

/-! Sinks that take everything. All that such a sink can show is the bytes it was given and how
often it passed them on. -/

namespace Brainfuck

namespace Sink

structure NeverFails (s : Sink) : Prop where
  writeLimit_eq : s.writeLimit = none
  flushLimit_eq : s.flushable → s.flushLimit = none

/-- The sink after each of the bytes was written and passed on. -/
def after (s : Sink) (bytes : List UInt8) : Sink :=
  { s with
    written := s.written ++ bytes
    writes := s.writes + bytes.length
    flushes := if s.flushable then s.flushes + bytes.length else s.flushes }

@[simp]
theorem after_nil (s : Sink) : s.after [] = s := by
  simp [after]

theorem NeverFails.put_after {s : Sink} (h : s.NeverFails) (bytes : List UInt8) (b : UInt8) :
    (s.after bytes).put b = (none, s.after (bytes ++ [b])) := by
  have hw := h.writeLimit_eq
  have hb : (s.written ++ bytes).push b = s.written ++ (bytes ++ [b]) := by
    apply Array.toList_inj.mp
    simp
  by_cases hf : s.flushable
  · have hl := h.flushLimit_eq hf
    simp [put, write, flush, after, exhausted, hw, hf, hl, hb, Nat.add_assoc]
  · simp [put, write, flush, after, exhausted, hw, hf, hb, Nat.add_assoc]

theorem NeverFails.put {s : Sink} (h : s.NeverFails) (b : UInt8) :
    s.put b = (none, s.after [b]) := by
  simpa using h.put_after [] b

theorem NeverFails.after {s : Sink} (h : s.NeverFails) (bytes : List UInt8) :
    (s.after bytes).NeverFails :=
  ⟨h.writeLimit_eq, h.flushLimit_eq⟩

theorem neverFails_default : NeverFails {} := ⟨rfl, fun _ => rfl⟩

/-! ### Sinks that break -/

inductive Request where
  | write
  | flush

/-- How often a sink has done what it was asked. -/
def done (s : Sink) : Request → Nat
  | .write => s.writes
  | .flush => s.flushes

/-- The sink that fails at a request once `limit` of its kind have succeeded. -/
def limited (r : Request) (limit : Nat) (s : Sink) : Sink :=
  match r with
  | .write => { s with writeLimit := some limit }
  | .flush => { s with flushLimit := some limit }

/-- How many bytes were stored when a request fails that `k` of its kind came before. -/
def Request.stored (k : Nat) : Request → Nat
  | write => k
  | flush => k + 1

variable {s : Sink} {r : Request} {limit : Nat}

/-- Only a sink that can be flushed does anything at a flush. -/
theorem done_after (hf : r = .flush → s.flushable) (bytes : List UInt8) :
    (s.after bytes).done r = s.done r + bytes.length := by
  cases r with
  | write => rfl
  | flush => simp [done, after, hf rfl]

theorem put_limited_of_lt (h : s.NeverFails) (hl : s.done r < limit) (b : UInt8) :
    (s.limited r limit).put b = (none, (s.after [b]).limited r limit) := by
  have hw := h.writeLimit_eq
  cases r with
  | write =>
    have hl' : ¬ limit ≤ s.writes := Nat.not_le.mpr hl
    by_cases hf : s.flushable
    · simp [put, write, flush, after, limited, exhausted, hl', hf, h.flushLimit_eq hf]
    · simp [put, write, flush, after, limited, exhausted, hl', hf]
  | flush =>
    have hl' : ¬ limit ≤ s.flushes := Nat.not_le.mpr hl
    by_cases hf : s.flushable <;> simp [put, write, flush, after, limited, exhausted, hl', hf, hw]

/-- At its limit the sink fails, before or after it has stored the byte. -/
theorem put_limited_of_le (h : s.NeverFails) (hf : r = .flush → s.flushable)
    (hl : limit ≤ s.done r) (b : UInt8) :
    ∃ sink, (s.limited r limit).put b = (some s.fault, sink) ∧
      sink.written.toList = s.written.toList ++ [b].take (r.stored 0) := by
  have hw := h.writeLimit_eq
  cases r with
  | write =>
    have hl' : limit ≤ s.writes := hl
    simp [put, write, limited, exhausted, hl', Request.stored]
  | flush =>
    have hl' : limit ≤ s.flushes := hl
    simp [put, write, flush, limited, exhausted, hw, hf rfl, hl', Request.stored]

end Sink

end Brainfuck
