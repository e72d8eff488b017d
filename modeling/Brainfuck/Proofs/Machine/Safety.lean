import Brainfuck.Proofs.Machine.Instruction
import Brainfuck.Proofs.Machine.Run

/-! Safety of whole runs. With the table of its own brackets a program stays inside its text and
its tape, and nothing can go wrong in it but its streams. -/

namespace Brainfuck

namespace Config

/-- How the streams can refuse a command. -/
inductive Refuses (c : Config) : Command → Error → Prop where
  | write {f : Fault} (h : (c.sink.write [c.state.value]).1 = some f) :
    Refuses c .output (.stream f)
  | flush {f : Fault} (hw : (c.sink.write [c.state.value]).1 = none)
    (h : (c.sink.write [c.state.value]).2.flush.1 = some f) : Refuses c .output (.stream f)
  | read {f : Fault} (h : (c.input.read 1).1 = .fault f) (hf : f.isEndOfInput = false) :
    Refuses c .input (.stream f)
  | characters {x : Text} (h : (c.input.read 1).1 = .data (.text x)) (hx : 1 < x.length) :
    Refuses c .input (.manyCharacters x.length)

/-- The machine `d` is on the same tape as `c`, with the pointer in range. -/
structure Stays (c d : Config) : Prop where
  size_eq : d.state.tape.size = c.state.tape.size
  inRange : d.state.InRange

variable {c d : Config} {e : Error}

theorem move_stays (h : c.state.InRange) (distance : Int) :
    ∃ d, c.move distance = .running d ∧ c.Stays d ∧
      d.state.position = c.state.position + 1 := by
  have h₀ := h.pointer_nonneg
  have h₁ := h.pointer_lt
  refine ⟨_, if_neg (by omega), ⟨rfl, ?_, ?_⟩, rfl⟩
  · exact Int.emod_nonneg _ (by omega)
  · exact Int.emod_lt_of_pos _ (by omega)

theorem modify_stays (h : c.state.InRange) (f : UInt8 → UInt8) :
    ∃ d, c.modify f = .running d ∧ c.Stays d ∧ d.state.position = c.state.position + 1 := by
  simp only [modify, h.cellIndex_eq]
  exact ⟨_, rfl, ⟨by simp [next], h.pointer_nonneg, by simpa [next] using h.pointer_lt⟩, rfl⟩

theorem write_stays_or_refuses (h : c.state.InRange) :
    (∃ d, c.write = .running d ∧ c.Stays d ∧ d.state.position = c.state.position + 1) ∨
      ∃ e d, c.write = .failed e d ∧ d.state = c.state ∧ c.Refuses .output e := by
  simp only [write, h.cell_eq, Sink.put]
  cases hw : c.sink.write [c.state.value] with
  | mk f? sink =>
    cases f? with
    | some f => exact .inr ⟨_, _, rfl, rfl, .write (by rw [hw])⟩
    | none =>
      simp only
      cases hf : sink.flush with
      | mk f? sink =>
        cases f? with
        | some f => exact .inr ⟨_, _, rfl, rfl, .flush (by rw [hw]) (by rw [hw, hf])⟩
        | none => exact .inl ⟨_, rfl, ⟨rfl, h.pointer_nonneg, h.pointer_lt⟩, rfl⟩

theorem refuses_of_byte? {r : Reply} (hr : (c.input.read 1).1 = r) (h : r.byte? = .error e) :
    c.Refuses .input e := by
  cases r with
  | nothing => simp [Reply.byte?] at h
  | fault f =>
    simp only [Reply.byte?] at h
    split at h
    case isTrue => simp at h
    case isFalse hf =>
      obtain rfl := Except.error.inj h
      exact .read hr (by simpa using hf)
  | data s =>
    cases s with
    | bytes bs => cases bs <;> simp [Reply.byte?] at h
    | text x =>
      match x, h with
      | [], h => simp [Reply.byte?] at h
      | [_], h => simp [Reply.byte?] at h
      | a :: b :: x, h =>
        obtain rfl := Except.error.inj h
        exact .characters hr (by simp)

theorem read_stays_or_refuses (h : c.state.InRange) :
    (∃ d, c.read = .running d ∧ c.Stays d ∧ d.state.position = c.state.position + 1) ∨
      ∃ e d, c.read = .failed e d ∧ d.state = c.state ∧ c.Refuses .input e := by
  cases hr : c.input.read 1 with
  | mk reply input =>
    cases hb : reply.byte? with
    | error e =>
      exact .inr ⟨e, _, read_of_byte?_error hr hb, rfl, refuses_of_byte? (by rw [hr]) hb⟩
    | ok b? =>
      refine .inl ⟨_, read_of_byte? h hr hb, ?_, ?_⟩
      · cases b? <;>
          exact ⟨by simp [next, State.receive, State.store], h.pointer_nonneg,
            by simpa [next, State.receive, State.store] using h.pointer_lt⟩
      · cases b? <;> rfl

end Config

namespace Image

variable {c d : Config} {e : Error} {code : Text} {t : JumpTable}

/-- A plain instruction goes on to the next position, unless the streams refuse it. -/
theorem perform_stays_or_refuses (image : Image) {i : Option Command} (hi : IsPlain i)
    (h : c.state.InRange) :
    (∃ d, image.perform i c = .running d ∧ c.Stays d ∧
      d.state.position = c.state.position + 1) ∨
    ∃ command e d, i = some command ∧ image.perform i c = .failed e d ∧ d.state = c.state ∧
      c.Refuses command e := by
  cases i with
  | none => exact .inl ⟨c.next, rfl, ⟨rfl, h.pointer_nonneg, h.pointer_lt⟩, rfl⟩
  | some i =>
    cases i with
    | right => exact .inl (Config.move_stays h 1)
    | left => exact .inl (Config.move_stays h (-1))
    | increment => exact .inl (Config.modify_stays h _)
    | decrement => exact .inl (Config.modify_stays h _)
    | output =>
      refine (Config.write_stays_or_refuses h).imp_right ?_
      rintro ⟨e, d, hd⟩
      exact ⟨.output, e, d, rfl, hd⟩
    | input =>
      refine (Config.read_stays_or_refuses h).imp_right ?_
      rintro ⟨e, d, hd⟩
      exact ⟨.input, e, d, rfl, hd⟩
    | loopStart => exact absurd rfl hi.1
    | loopEnd => exact absurd rfl hi.2

end Image

namespace Config

/-- The machine is on a tape of `size` cells and inside the program. -/
structure Inside (code : Text) (size : Nat) (c : Config) : Prop where
  size_eq : c.state.tape.size = size
  inRange : c.state.InRange
  position_nonneg : 0 ≤ c.state.position
  position_le : c.state.position ≤ code.length

/-- The machine is inside the program, and a bracket where it stands has its partner. -/
structure Safe (code : Text) (t : JumpTable) (size : Nat) (c : Config) : Prop
    extends Inside code size c where
  cell_lt : ∀ b ∈ c.state.tape, b.toNat < 256
  ends_of_startsAt : code.StartsAt c.state.position.toNat → ∃ j : Nat,
    t.ends[c.state.position.toNat]? = some (some (j : Int)) ∧ code.EndsAt j ∧
      t.starts[j]? = some (some c.state.position)
  starts_of_endsAt : code.EndsAt c.state.position.toNat → ∃ i : Nat,
    t.starts[c.state.position.toNat]? = some (some (i : Int)) ∧ code.StartsAt i ∧
      t.ends[i]? = some (some c.state.position)

variable {code : Text} {t : JumpTable} {size : Nat} {c d : Config}

theorem inside_start (code : Text) {s : State} (h : s.InRange) (input : Input) (sink : Sink) :
    (start s input sink).Inside code s.tape.size :=
  ⟨rfl, ⟨h.pointer_nonneg, h.pointer_lt⟩, le_rfl, Int.natCast_nonneg _⟩

theorem Inside.goto (h : c.Inside code size) {p : Nat} (hp : p ≤ code.length) :
    (c.goto p).Inside code size :=
  ⟨h.size_eq, ⟨h.inRange.pointer_nonneg, h.inRange.pointer_lt⟩, Int.natCast_nonneg _,
    Int.ofNat_le.mpr hp⟩

theorem Inside.tick (h : c.Inside code size) : c.tick.Inside code size :=
  ⟨h.size_eq, ⟨h.inRange.pointer_nonneg, h.inRange.pointer_lt⟩, h.position_nonneg, h.position_le⟩

/-- What the streams refuse does not depend on the number of steps. -/
theorem Refuses.of_tick {command : Command} {e : Error} (h : c.tick.Refuses command e) :
    c.Refuses command e := by
  cases h with
  | write h => exact .write h
  | flush hw h => exact .flush hw h
  | read h hf => exact .read h hf
  | characters h hx => exact .characters h hx

theorem Inside.safe (h : c.Inside code size) (ht : t.Holds code code.length)
    (hb : code.Balanced) : c.Safe code t size := by
  have hp : (c.state.position.toNat : Int) = c.state.position :=
    Int.toNat_of_nonneg h.position_nonneg
  refine ⟨h, fun b _ => b.toNat_lt, fun hs => ?_, fun he => ?_⟩
  · obtain ⟨j, hj⟩ := hb.exists_encloses_of_startsAt hs
    exact ⟨j, ht.ends_of_encloses hj, hj.endsAt, by rw [ht.starts_of_encloses hj, hp]⟩
  · obtain ⟨i, hi⟩ := hb.exists_encloses_of_endsAt he
    exact ⟨i, ht.starts_of_encloses hi, hi.startsAt, by rw [ht.ends_of_encloses hi, hp]⟩

end Config

namespace Image

variable {code : Text} {t : JumpTable} {size : Nat} {c d : Config} {e : Error} {n : Nat}

/-- Inside a program a step comes to the end, or stays inside, or is refused by the streams. -/
theorem step_inside (ht : t.Holds code code.length) (hb : code.Balanced)
    (h : c.Inside code size) :
    ((ofTable code t).step c = .finished c ∧ c.state.position = code.length) ∨
    (∃ d, (ofTable code t).step c = .running d ∧ d.Inside code size) ∨
    ∃ command e d, code[c.state.position.toNat]? = some command.codePoint ∧
      (ofTable code t).step c = .failed e d ∧ d.state = c.tick.state ∧ c.Refuses command e := by
  obtain ⟨p, hp⟩ := Int.eq_ofNat_of_zero_le h.position_nonneg
  have hle := h.position_le
  rcases Nat.lt_or_ge p code.length with hlt | hge
  · right
    have hx : code[p]? = some code[p] := List.getElem?_eq_getElem hlt
    by_cases hi : IsPlain (Command.ofCodePoint? code[p])
    · rw [step_of_getElem? hp hx, hp, Int.toNat_natCast]
      rcases perform_stays_or_refuses (ofTable code t) hi h.tick.inRange with
        ⟨d, hd, hs, hpos⟩ | ⟨command, e, d, hc, hd, hs, hr⟩
      · have hpos' : d.state.position = p + 1 := by rw [hpos]; exact congrArg (· + 1) hp
        exact .inl ⟨d, hd, hs.size_eq.trans h.size_eq, hs.inRange, by omega, by omega⟩
      · refine .inr ⟨command, e, d, ?_, hd, hs, hr.of_tick⟩
        rw [hx, Command.eq_codePoint_of_ofCodePoint? hc]
    · left
      obtain ⟨i, j, he, hij⟩ := exists_encloses_of_not_isPlain hb hx hi
      have hi' := he.startsAt.lt
      have hj' := he.endsAt.lt
      rw [step_of_encloses ht he (by omega) h.inRange.cell_eq]
      refine ⟨_, rfl, h.tick.goto ?_⟩
      split <;> omega
  · exact .inl ⟨step_of_length_le (by omega), by omega⟩

theorem inside_of_step (ht : t.Holds code code.length) (hb : code.Balanced)
    (h : c.Inside code size) (hd : (ofTable code t).step c = .running d) : d.Inside code size := by
  rcases step_inside ht hb h with ⟨hf, -⟩ | ⟨d', hs, hi⟩ | ⟨_, _, _, -, hf, -⟩
  · simp [hf] at hd
  · rw [hs, Progress.running.injEq] at hd
    exact hd ▸ hi
  · simp [hf] at hd

theorem advance_inside (ht : t.Holds code code.length) (hb : code.Balanced)
    (h : c.Inside code size) (hd : (ofTable code t).advance n c = .running d) :
    d.Inside code size :=
  advance_invariant (fun _ _ hc hs => inside_of_step ht hb hc hs) h hd

end Image

namespace Execution

/-- After `n` steps the machine is safe; the program has ended only at the end of its text, and
failed only at a command that a stream refused. -/
def SafeAfter (x : Execution) (code : Text) (t : JumpTable) (size n : Nat) : Prop :=
  match x.image.advance n x.config with
  | .running c => c.Safe code t size
  | .finished c => c.Safe code t size ∧ c.state.position = code.length
  | .failed e c => c.Safe code t size ∧
    ∃ m b command, m < n ∧ x.image.advance m x.config = .running b ∧
      c.state.position = b.state.position ∧
      code[b.state.position.toNat]? = some command.codePoint ∧ b.Refuses command e

variable {code : Text} {t : JumpTable} {size : Nat} {c : Config}

theorem safeAfter_of_inside (ht : t.Holds code code.length) (hb : code.Balanced)
    (h : c.Inside code size) (n : Nat) :
    SafeAfter ⟨Image.ofTable code t, c⟩ code t size n := by
  rw [SafeAfter]
  split
  case h_1 d hn => exact (Image.advance_inside ht hb h hn).safe ht hb
  case h_2 d hn =>
    obtain ⟨m, b, hm, hmb, hf⟩ := Image.exists_last_step hn (by simp)
    have hi := Image.advance_inside ht hb h hmb
    rcases Image.step_inside ht hb hi with ⟨hf', hp⟩ | ⟨d, hd, -⟩ | ⟨_, _, _, -, hd, -⟩
    · rw [hf', Progress.finished.injEq] at hf
      exact hf ▸ ⟨hi.safe ht hb, hp⟩
    · simp [hd] at hf
    · simp [hd] at hf
  case h_3 e d hn =>
    obtain ⟨m, b, hm, hmb, hf⟩ := Image.exists_last_step hn (by simp)
    have hi := Image.advance_inside ht hb h hmb
    rcases Image.step_inside ht hb hi with ⟨hd, -⟩ | ⟨d, hd, -⟩ | ⟨command, e', d', hc, hd, hs, hr⟩
    · simp [hd] at hf
    · simp [hd] at hf
    · rw [hd, Progress.failed.injEq] at hf
      obtain ⟨rfl, rfl⟩ := hf
      have hk := hi.tick
      have hd' : d'.Inside code size :=
        ⟨hs ▸ hk.size_eq, hs ▸ hk.inRange, hs ▸ hk.position_nonneg, hs ▸ hk.position_le⟩
      exact ⟨hd'.safe ht hb, m, b, command, hm, hmb, by rw [hs]; rfl, hc, hr⟩

/-- A program with its own table is safe after any number of steps, whatever its streams do. -/
theorem safeAfter_of_resolve (h : JumpTable.resolve code = .ok t) (s : State) (hs : s.InRange)
    (memory : Memory) (tapeSize : Int) (input : Input) (sink : Sink) :
    ∃ x, start memory code none (some s) tapeSize input sink = .ok x ∧
      start memory code (some t) (some s) tapeSize input sink = .ok x ∧
      ∀ n, x.SafeAfter code t s.tape.size n :=
  ⟨_, start_of_resolve h memory s tapeSize input sink,
    start_of_table memory t s tapeSize input sink,
    safeAfter_of_inside (JumpTable.holds_of_resolve h) (JumpTable.balanced_of_resolve h)
      (Config.inside_start code hs input sink)⟩

/-- A loop that reads a fault and writes to a broken pipe. -/
theorem safeAfter_broken_streams :
    ∃ x, start (.upTo 9) (Text.ofString "+[,.]") none (some { tape := #[0, 7], pointer := 1 }) 0
        (.script [.fault Input.oversize]) { writeLimit := some 0 } = .ok x ∧
      start (.upTo 9) (Text.ofString "+[,.]") (some ⟨#[none, some 4, none, none, none],
        #[none, none, none, none, some 1]⟩) (some { tape := #[0, 7], pointer := 1 }) 0
        (.script [.fault Input.oversize]) { writeLimit := some 0 } = .ok x ∧
      ∀ n, x.SafeAfter (Text.ofString "+[,.]") ⟨#[none, some 4, none, none, none],
        #[none, none, none, none, some 1]⟩ 2 n :=
  safeAfter_of_resolve rfl { tape := #[0, 7], pointer := 1 } ⟨by decide, by decide⟩ _ 0 _ _

end Execution

end Brainfuck
