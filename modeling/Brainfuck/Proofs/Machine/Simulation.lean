import Brainfuck.Proofs.Machine.Instruction
import Brainfuck.Proofs.Stream.Sink

/-! Runs side by side. If every step commutes with a change of the machine, so does every run. A
program never looks at what became of its output nor at the failures that its input had, so both
may be changed as long as writes succeed and fail as before. Only reads and writes involve the
streams. -/

namespace Brainfuck

def Progress.config : Progress → Config
  | .running c => c
  | .finished c => c
  | .failed _ c => c

def Outcome.map (f : Config → Config) (o : Outcome) : Outcome := ⟨o.error?, f o.final⟩

theorem Progress.outcome?_map (f : Config → Config) (p : Progress) :
    (p.map f).outcome? = p.outcome?.map (Outcome.map f) := by
  cases p <;> rfl

/-- Runs commute with a change of the machine that all steps on the way commute with. -/
theorem Image.advance_map {image image' : Image} {f : Config → Config} {P : Config → Prop}
    (hP : ∀ c d, P c → image.step c = .running d → P d)
    (hf : ∀ c, P c → image'.step (f c) = (image.step c).map f) {c : Config} (hc : P c) (n : Nat) :
    image'.advance n (f c) = (image.advance n c).map f := by
  induction n generalizing c with
  | zero => rfl
  | succ n ih =>
    rw [advance_succ, advance_succ, hf c hc]
    cases hd : image.step c with
    | running d => exact ih (hP c d hc hd)
    | finished d => rfl
    | failed e d => rfl

/-! ### Changes that most instructions do not notice -/

namespace Config

/-- A change of the machine that leaves alone what moves, changes of cells and jumps look at. -/
structure Transparent (f : Config → Config) : Prop where
  tape_eq : ∀ c, (f c).state.tape = c.state.tape
  pointer_eq : ∀ c, (f c).state.pointer = c.state.pointer
  position_eq : ∀ c, (f c).state.position = c.state.position
  tick_eq : ∀ c, (f c).tick = f c.tick
  goto_eq : ∀ c p, (f c).goto p = f (c.goto p)
  setPointer_eq : ∀ c p, { f c with state := { (f c).state with pointer := p } } =
    f { c with state := { c.state with pointer := p } }
  setTape_eq : ∀ c t, { f c with state := { (f c).state with tape := t } } =
    f { c with state := { c.state with tape := t } }

namespace Transparent

variable {f : Config → Config}

theorem cell_eq (h : Transparent f) (c : Config) : (f c).state.cell = c.state.cell := by
  rw [State.cell, State.cell, h.tape_eq, h.pointer_eq]

theorem next_eq (h : Transparent f) (c : Config) : (f c).next = f c.next := by
  rw [show (f c).next = (f c).goto ((f c).state.position + 1) from rfl, h.position_eq, h.goto_eq]
  rfl

theorem move_eq (h : Transparent f) (c : Config) (distance : Int) :
    (f c).move distance = (c.move distance).map f := by
  simp only [move]
  rw [h.setPointer_eq, h.next_eq, h.tape_eq, h.pointer_eq]
  split_ifs <;> rfl

theorem modify_eq (h : Transparent f) (c : Config) (change : UInt8 → UInt8) :
    (f c).modify change = (c.modify change).map f := by
  simp only [modify, h.setTape_eq, h.next_eq]
  rw [h.tape_eq, h.pointer_eq]
  cases State.cellIndex c.state.tape.size c.state.pointer <;> rfl

theorem branch_eq (h : Transparent f) (c : Config) (slots : Array (Option Int))
    (taken : UInt8 → Bool) : (f c).branch slots taken = (c.branch slots taken).map f := by
  simp only [branch, h.cell_eq, h.position_eq, h.goto_eq, h.next_eq]
  cases c.state.cell with
  | error e => rfl
  | ok b =>
    simp only
    split_ifs with hb
    · cases Offset.index? slots.size c.state.position with
      | none => rfl
      | some i =>
        simp only
        cases slots.getD i none <;> rfl
    · rfl

end Transparent

end Config

namespace Image

variable {image : Image} {f : Config → Config} {c : Config}

/-- Only reads and writes can notice such a change. -/
theorem perform_map (image : Image) (h : Config.Transparent f) {i : Option Command}
    (ho : i = some .output → (f c).write = c.write.map f)
    (hi : i = some .input → (f c).read = c.read.map f) :
    image.perform i (f c) = (image.perform i c).map f := by
  cases i with
  | none => exact congrArg Progress.running (h.next_eq c)
  | some i =>
    cases i with
    | right => exact h.move_eq c 1
    | left => exact h.move_eq c (-1)
    | increment => exact h.modify_eq c _
    | decrement => exact h.modify_eq c _
    | output => exact ho rfl
    | input => exact hi rfl
    | loopStart => exact h.branch_eq c _ _
    | loopEnd => exact h.branch_eq c _ _

/-- A step commutes with a change that the instruction commutes with and fetching does not see. -/
theorem step_map_of_perform (hp : (f c).state.position = c.state.position)
    (ht : (f c).tick = f c.tick)
    (h : image.perform (image.instruction c) (f c.tick) =
      (image.perform (image.instruction c) c.tick).map f) :
    image.step (f c) = (image.step c).map f := by
  rw [instruction] at h
  rw [step, step, hp, ht]
  split_ifs with hs
  · rfl
  · rw [if_neg hs] at h
    cases hx : Offset.index? image.code.size c.state.position with
    | none => rfl
    | some x =>
      rw [hx] at h
      exact h

theorem step_map (h : Config.Transparent f)
    (ho : image.instruction c = some .output → (f c.tick).write = c.tick.write.map f)
    (hi : image.instruction c = some .input → (f c.tick).read = c.tick.read.map f) :
    image.step (f c) = (image.step c).map f :=
  step_map_of_perform (h.position_eq c) (h.tick_eq c) (image.perform_map h ho hi)

end Image

/-! ### Changes of the sink -/

namespace Config

/-- Change the sink, and the failures of the input that are remembered. -/
def relay (f : Sink → Sink) (g : Array Fault → Array Fault) (c : Config) : Config :=
  { c with sink := f c.sink, missed := g c.missed }

theorem transparent_relay (f : Sink → Sink) (g : Array Fault → Array Fault) :
    Transparent (relay f g) := by
  constructor <;> intros <;> rfl

variable {f : Sink → Sink} {g : Array Fault → Array Fault} {c : Config}

/-- A write sees of the sink only whether it fails. -/
theorem relay_write (g : Array Fault → Array Fault)
    (hf : ∀ b, (f c.sink).put b = ((c.sink.put b).1, f (c.sink.put b).2)) :
    (c.relay f g).write = c.write.map (relay f g) := by
  simp only [write, relay]
  cases c.state.cell with
  | error e => rfl
  | ok b =>
    simp only [hf b]
    cases c.sink.put b with
    | mk f? sink => cases f? <;> rfl

/-- A read adds to the remembered failures and does not look at them. -/
theorem relay_read (f : Sink → Sink) (hg : ∀ faults x, g (faults.push x) = (g faults).push x) :
    (c.relay f g).read = c.read.map (relay f g) := by
  simp only [read, relay]
  cases c.input.read 1 with
  | mk reply input =>
    cases reply.byte? with
    | error e => cases reply.missed? <;> simp [Progress.map, relay, hg]
    | ok b? =>
      simp only
      cases State.cellIndex c.state.tape.size c.state.pointer <;> cases reply.missed? <;>
        simp [Progress.map, next, relay, hg]

end Config

theorem Image.step_relay {f : Sink → Sink} {g : Array Fault → Array Fault} {c : Config}
    (image : Image)
    (hf : image.instruction c = some .output →
      ∀ b, (f c.sink).put b = ((c.sink.put b).1, f (c.sink.put b).2))
    (hg : ∀ faults x, g (faults.push x) = (g faults).push x) :
    image.step (c.relay f g) = (image.step c).map (Config.relay f g) :=
  step_map (Config.transparent_relay f g) (fun ho => Config.relay_write (c := c.tick) g (hf ho))
    fun _ => Config.relay_read f hg

/-! ### What becomes of the streams -/

namespace Config

/-- The machine `d` has the streams of `c` and has counted no more than `c`. -/
structure Quiet (c d : Config) : Prop where
  input_eq : d.input = c.input
  sink_eq : d.sink = c.sink
  missed_eq : d.missed = c.missed
  steps_eq : d.state.steps = c.state.steps
  bytesRead_eq : d.state.bytesRead = c.state.bytesRead
  bytesWritten_eq : d.state.bytesWritten = c.state.bytesWritten
  emptyReads_eq : d.state.emptyReads = c.state.emptyReads

theorem quiet_move (c : Config) (distance : Int) : c.Quiet (c.move distance).config := by
  simp only [move]
  split <;> constructor <;> rfl

theorem quiet_modify (c : Config) (change : UInt8 → UInt8) :
    c.Quiet (c.modify change).config := by
  unfold modify
  split <;> constructor <;> rfl

theorem quiet_branch (c : Config) (slots : Array (Option Int)) (taken : UInt8 → Bool) :
    c.Quiet (c.branch slots taken).config := by
  unfold branch
  repeat' split
  all_goals constructor <;> rfl

theorem streams_read (c : Config) :
    c.read.config.input = (c.input.read 1).2 ∧ c.read.config.sink = c.sink := by
  simp only [read]
  cases c.input.read 1 with
  | mk reply input =>
    cases reply.byte? with
    | error e => exact ⟨rfl, rfl⟩
    | ok b? =>
      simp only
      cases State.cellIndex c.state.tape.size c.state.pointer <;> exact ⟨rfl, rfl⟩

theorem streams_write (c : Config) :
    c.write.config.input = c.input ∧
      (c.write.config.sink = c.sink ∨ ∃ b, c.write.config.sink = (c.sink.put b).2) := by
  unfold write
  cases c.state.cell with
  | error e => exact ⟨rfl, .inl rfl⟩
  | ok b =>
    simp only
    cases hp : c.sink.put b with
    | mk f? sink => cases f? <;> exact ⟨rfl, .inr ⟨b, by rw [hp]; rfl⟩⟩

end Config

namespace Image

variable {image : Image} {c d : Config}

/-- Only reads and writes involve the streams. -/
theorem quiet_perform (image : Image) {i : Option Command} (ho : i ≠ some .output)
    (hi : i ≠ some .input) (c : Config) : c.Quiet (image.perform i c).config := by
  cases i with
  | none => constructor <;> rfl
  | some i =>
    cases i with
    | right => exact c.quiet_move 1
    | left => exact c.quiet_move (-1)
    | increment => exact c.quiet_modify _
    | decrement => exact c.quiet_modify _
    | output => exact absurd rfl ho
    | input => exact absurd rfl hi
    | loopStart => exact c.quiet_branch _ _
    | loopEnd => exact c.quiet_branch _ _

theorem sink_perform (image : Image) (i : Option Command) (c : Config) :
    (image.perform i c).config.sink = c.sink ∨
      ∃ b, (image.perform i c).config.sink = (c.sink.put b).2 := by
  by_cases ho : i = some .output
  · subst ho
    exact c.streams_write.2
  · by_cases hi : i = some .input
    · subst hi
      exact .inl c.streams_read.2
    · exact .inl (image.quiet_perform ho hi c).sink_eq

theorem neverFails_of_step (hc : c.sink.NeverFails) (h : image.step c = .running d) :
    d.sink.NeverFails := by
  rw [step] at h
  split_ifs at h
  split at h
  · simp at h
  · rename_i i _
    have hd := sink_perform image (image.code.getD i none) c.tick
    rw [h] at hd
    rcases hd with hd | ⟨b, hd⟩
    · exact hd ▸ hc
    · rw [show c.tick.sink = c.sink from rfl, hc.put b] at hd
      exact hd ▸ hc.after [b]

end Image

namespace Config

/-- The machine with all its output on another sink. -/
def redirect (sink : Sink) (c : Config) : Config :=
  { c with sink := sink.after c.sink.written.toList }

theorem redirect_start (s : State) (input : Input) (sink : Sink) :
    (start s input {}).redirect sink = start s input sink := by
  simp [redirect, start]

end Config

/-- On sinks that never fail a program runs alike. -/
theorem Image.advance_redirect (image : Image) {sink : Sink} (hk : sink.NeverFails) {c : Config}
    (hc : c.sink.NeverFails) (n : Nat) :
    image.advance n (c.redirect sink) = (image.advance n c).map (Config.redirect sink) := by
  refine advance_map (P := fun c => c.sink.NeverFails) (fun c d => neverFails_of_step) ?_ hc n
  intro c hc
  refine image.step_relay (f := fun s => sink.after s.written.toList) (g := id) (fun _ b => ?_)
    fun _ _ => rfl
  have hw : (c.sink.after [b]).written.toList = c.sink.written.toList ++ [b] := by
    simp [Sink.after]
  rw [hc.put b, hk.put_after, hw]

end Brainfuck
