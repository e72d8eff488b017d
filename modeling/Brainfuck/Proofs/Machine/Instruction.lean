import Brainfuck.Machine.Execution
import Brainfuck.Proofs.Bracket.Resolve

/-! What one instruction does, by its kind. A plain instruction goes on to the next position and
knows neither its position nor the number of steps before it; a bracket only chooses a position. -/

namespace Brainfuck

namespace State

/-- The pointer is on a cell of the tape. -/
structure InRange (s : State) : Prop where
  pointer_nonneg : 0 ≤ s.pointer
  pointer_lt : s.pointer < s.tape.size

/-- The value of the cell at a pointer in range. -/
def value (s : State) : UInt8 := s.tape.getD s.pointer.toNat 0

variable {s : State}

theorem InRange.cellIndex_eq (h : s.InRange) :
    cellIndex s.tape.size s.pointer = .ok s.pointer.toNat := by
  rw [cellIndex, Offset.index?_of_nonneg h.pointer_nonneg h.pointer_lt]

theorem InRange.cell_eq (h : s.InRange) : s.cell = .ok s.value := by
  rw [cell, h.cellIndex_eq]
  rfl

end State

namespace Progress

/-- Change the machine that a run has come to. -/
def map (f : Config → Config) : Progress → Progress
  | .running c => .running (f c)
  | .finished c => .finished (f c)
  | .failed e c => .failed e (f c)

end Progress

namespace Config

/-- Displace the position and the number of steps. -/
def shift (c : Config) (position steps : Int) : Config :=
  { c with state := { c.state with
      position := c.state.position + position
      steps := c.state.steps + steps } }

variable (c : Config) (p n : Int)

theorem shift_tick : (c.shift p n).tick = c.tick.shift p n := by
  simp [shift, tick, Int.add_right_comm]

theorem shift_next : (c.shift p n).next = c.next.shift p n := by
  simp [shift, next, Int.add_right_comm]

theorem shift_move (d : Int) : (c.shift p n).move d = (c.move d).map (shift · p n) := by
  by_cases h : c.state.tape.size = 0
  · simp [move, shift, h, Progress.map]
  · simp [move, shift, next, h, Progress.map, Int.add_right_comm]

theorem shift_modify (f : UInt8 → UInt8) :
    (c.shift p n).modify f = (c.modify f).map (shift · p n) := by
  simp only [modify, shift]
  split <;> simp [Progress.map, next, Int.add_right_comm]

theorem shift_write : (c.shift p n).write = c.write.map (shift · p n) := by
  have hc : (c.shift p n).state.cell = c.state.cell := rfl
  simp only [write, hc]
  cases c.state.cell with
  | error e => rfl
  | ok b =>
    simp only [shift]
    cases c.sink.put b with
    | mk f? sink => cases f? <;> simp [Progress.map, next, Int.add_right_comm]

theorem shift_read : (c.shift p n).read = c.read.map (shift · p n) := by
  simp only [read, shift]
  cases c.input.read 1 with
  | mk reply input =>
    cases reply.byte? with
    | error e => simp [Progress.map]
    | ok b? =>
      simp only
      cases State.cellIndex c.state.tape.size c.state.pointer with
      | error e => simp [Progress.map]
      | ok i =>
        cases b? <;>
          simp [Progress.map, next, State.receive, State.store, Int.add_right_comm]

variable {c} {reply : Reply} {rest : Input}

theorem read_of_byte?_error {e : Error} (hr : c.input.read 1 = (reply, rest))
    (hb : reply.byte? = .error e) :
    c.read = .failed e ⟨c.state, rest, c.sink, reply.missed?.elim c.missed c.missed.push⟩ := by
  simp only [read, hr, hb]
  cases reply.missed? <;> rfl

theorem read_of_byte? (h : c.state.InRange) {b? : Option UInt8}
    (hr : c.input.read 1 = (reply, rest)) (hb : reply.byte? = .ok b?) :
    c.read = .running (next ⟨c.state.receive c.state.pointer.toNat b?, rest, c.sink,
      reply.missed?.elim c.missed c.missed.push⟩) := by
  simp only [read, hr, hb, h.cellIndex_eq]
  cases reply.missed? <;> rfl

end Config

namespace Image

variable {code : Text} {t : JumpTable} {c : Config}

/-- Plain instructions are the same at all positions of all programs. -/
theorem perform_shift (image image' : Image) {i : Option Command} (hi : IsPlain i) (c : Config)
    (p n : Int) : image.perform i (c.shift p n) = (image'.perform i c).map (·.shift p n) := by
  obtain ⟨h₁, h₂⟩ := hi
  cases i with
  | none => simp [perform, Config.shift_next, Progress.map]
  | some i =>
    cases i with
    | right => exact c.shift_move p n 1
    | left => exact c.shift_move p n (-1)
    | increment => exact c.shift_modify p n _
    | decrement => exact c.shift_modify p n _
    | output => exact c.shift_write p n
    | input => exact c.shift_read p n
    | loopStart => exact absurd rfl h₁
    | loopEnd => exact absurd rfl h₂

/-! ### Fetching -/

/-- The command that is carried out next; `none` at a comment and where there is no instruction. -/
def instruction (image : Image) (c : Config) : Option Command :=
  if image.code.size ≤ c.state.position then none
  else ((Offset.index? image.code.size c.state.position).map (image.code.getD · none)).join

theorem step_eq_perform (image : Image) (c : Config) :
    image.step c = image.perform (image.instruction c) c.tick ∨
      image.instruction c = none ∧
        (image.step c = .finished c ∨ image.step c = .failed .noInstruction c) := by
  rw [step, instruction]
  split_ifs with h
  · exact .inr ⟨rfl, .inl rfl⟩
  · cases Offset.index? image.code.size c.state.position with
    | none => exact .inr ⟨rfl, .inr rfl⟩
    | some i => exact .inl rfl

theorem step_of_instruction {image : Image} {command : Command}
    (h : image.instruction c = some command) :
    image.step c = image.perform (some command) c.tick := by
  rcases image.step_eq_perform c with hp | ⟨hnone, -⟩
  · rw [hp, h]
  · simp [h] at hnone

@[simp]
theorem size_code_ofTable (code : Text) (t : JumpTable) :
    (ofTable code t).code.size = code.length := by
  simp [ofTable]

theorem step_of_length_le (h : (code.length : Int) ≤ c.state.position) :
    (ofTable code t).step c = .finished c := by
  rw [step, size_code_ofTable, if_pos h]

theorem step_of_getElem? {p : Nat} {x : CodePoint} (hp : c.state.position = p)
    (hx : code[p]? = some x) :
    (ofTable code t).step c = (ofTable code t).perform (Command.ofCodePoint? x) c.tick := by
  obtain ⟨hlt, hx⟩ := List.getElem?_eq_some_iff.mp hx
  rw [step, size_code_ofTable, hp, if_neg (by omega),
    Offset.index?_of_nonneg (by omega) (by omega)]
  simp [ofTable, hlt, hx]

theorem instruction_of_getElem? {p : Nat} {x : CodePoint} (hp : c.state.position = p)
    (hx : code[p]? = some x) :
    (ofTable code t).instruction c = Command.ofCodePoint? x := by
  obtain ⟨hlt, hx⟩ := List.getElem?_eq_some_iff.mp hx
  rw [instruction, size_code_ofTable, hp, if_neg (by omega),
    Offset.index?_of_nonneg (by omega) (by omega)]
  simp [ofTable, hlt, hx]

/-! ### Brackets -/

variable {i j : Nat} {b : UInt8}

/-- A loop is entered, or left for the position after its end. -/
theorem perform_loopStart (hx : t.ends[i]? = some (some (j : Int)))
    (hp : c.state.position = i) (hb : c.state.cell = .ok b) :
    (ofTable code t).perform (some .loopStart) c =
      .running (c.goto (if b = 0 then j + 1 else i + 1 : Nat)) := by
  obtain ⟨hi, -⟩ := Array.getElem?_eq_some_iff.mp hx
  have hd : t.ends.getD i none = some (j : Int) := by
    rw [Array.getD_eq_getD_getElem?, hx]
    rfl
  simp only [perform, ofTable, Config.branch, hb, hp, beq_iff_eq]
  by_cases h₀ : b = 0
  · rw [if_pos h₀, if_pos h₀, Offset.index?_of_nonneg (by omega) (by omega)]
    simp [hd]
  · rw [if_neg h₀, if_neg h₀]
    simp [Config.next, Config.goto, hp]

/-- At its end a loop is left, or gone round again from the position after its start. -/
theorem perform_loopEnd (hx : t.starts[j]? = some (some (i : Int)))
    (hp : c.state.position = j) (hb : c.state.cell = .ok b) :
    (ofTable code t).perform (some .loopEnd) c =
      .running (c.goto (if b = 0 then j + 1 else i + 1 : Nat)) := by
  obtain ⟨hj, -⟩ := Array.getElem?_eq_some_iff.mp hx
  have hd : t.starts.getD j none = some (i : Int) := by
    rw [Array.getD_eq_getD_getElem?, hx]
    rfl
  simp only [perform, ofTable, Config.branch, hb, hp, bne_iff_ne]
  by_cases h₀ : b = 0
  · simp [h₀, Config.next, Config.goto, hp]
  · rw [if_pos h₀, if_neg h₀, Offset.index?_of_nonneg (by omega) (by omega)]
    simp [hd]

/-- Both brackets of a loop decide alike: into the body, or past the loop. -/
theorem step_of_slots (hs : code.StartsAt i) (he : code.EndsAt j)
    (hx : t.ends[i]? = some (some (j : Int))) (hy : t.starts[j]? = some (some (i : Int)))
    (hp : c.state.position = i ∨ c.state.position = j) (hb : c.state.cell = .ok b) :
    (ofTable code t).step c = .running (c.tick.goto (if b = 0 then j + 1 else i + 1 : Nat)) := by
  rcases hp with hp | hp
  · rw [step_of_getElem? hp hs, Command.ofCodePoint?_codePoint]
    exact perform_loopStart hx hp hb
  · rw [step_of_getElem? hp he, Command.ofCodePoint?_codePoint]
    exact perform_loopEnd hy hp hb

theorem step_of_encloses (ht : t.Holds code code.length) (he : code.Encloses i j)
    (hp : c.state.position = i ∨ c.state.position = j) (hb : c.state.cell = .ok b) :
    (ofTable code t).step c = .running (c.tick.goto (if b = 0 then j + 1 else i + 1 : Nat)) :=
  step_of_slots he.startsAt he.endsAt (ht.ends_of_encloses he) (ht.starts_of_encloses he) hp hb

/-- In a balanced program every instruction that is not plain is one end of a loop. -/
theorem exists_encloses_of_not_isPlain (hb : code.Balanced) {p : Nat} {x : CodePoint}
    (hx : code[p]? = some x) (hi : ¬ IsPlain (Command.ofCodePoint? x)) :
    ∃ i j, code.Encloses i j ∧ (p = i ∨ p = j) := by
  by_cases hs : code.StartsAt p
  · obtain ⟨j, he⟩ := hb.exists_encloses_of_startsAt hs
    exact ⟨p, j, he, .inl rfl⟩
  · have hep : code.EndsAt p := by
      by_contra he
      exact hi ⟨mt (Text.startsAt_iff hx).mpr hs, mt (Text.endsAt_iff hx).mpr he⟩
    obtain ⟨i, he⟩ := hb.exists_encloses_of_endsAt hep
    exact ⟨i, p, he, .inr rfl⟩

end Image

end Brainfuck
