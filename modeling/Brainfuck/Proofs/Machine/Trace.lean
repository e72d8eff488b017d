import Brainfuck.Proofs.Machine.Streams
import Brainfuck.Proofs.Stream.Supply

/-! The history of a run. Every completed instruction counts as a step, a write also as a byte
written, and a read as a byte or as an empty read; no other instruction touches the streams. So the
counters and the streams of a machine follow from the machines that its run went through. -/

namespace Brainfuck

/-! ### One instruction -/

namespace Config

/-- The ways in which the machine `c` can complete an instruction. -/
inductive Completes (c : Config) : Option Command → Config → Prop where
  /-- The sink has taken the cell. -/
  | output {b : UInt8} {sink : Sink} (cell : c.state.cell = .ok b)
    (put : c.sink.put b = (none, sink)) :
    Completes c (some .output) (next { c with
      state := { c.state with bytesWritten := c.state.bytesWritten + 1 }
      sink })
  /-- The input has set the cell. -/
  | input {reply : Reply} {rest : Input} {b? : Option UInt8} {i : Nat}
    (read : c.input.read 1 = (reply, rest)) (byte : reply.byte? = .ok b?)
    (index : State.cellIndex c.state.tape.size c.state.pointer = .ok i) :
    Completes c (some .input) (next ⟨c.state.receive i b?, rest, c.sink,
      reply.missed?.elim c.missed c.missed.push⟩)
  /-- The streams are not involved. -/
  | quiet {i : Option Command} {d : Config} (notOutput : i ≠ some .output)
    (notInput : i ≠ some .input) (quiet : c.Quiet d) : Completes c i d

variable {c d : Config}

theorem completes_of_write (h : c.write = .running d) : c.Completes (some .output) d := by
  unfold write at h
  cases hc : c.state.cell with
  | error e => simp [hc] at h
  | ok b =>
    simp only [hc] at h
    cases hp : c.sink.put b with
    | mk f? sink =>
      rw [hp] at h
      cases f? with
      | some f => simp at h
      | none =>
        obtain rfl := Progress.running.inj h
        exact .output hc hp

theorem completes_of_read (h : c.read = .running d) : c.Completes (some .input) d := by
  simp only [read] at h
  cases hr : c.input.read 1 with
  | mk reply rest =>
    simp only [hr] at h
    cases hb : reply.byte? with
    | error e => simp [hb] at h
    | ok b? =>
      simp only [hb] at h
      cases hi : State.cellIndex c.state.tape.size c.state.pointer with
      | error e => simp [hi] at h
      | ok i =>
        simp only [hi] at h
        obtain rfl := Progress.running.inj h
        have hcomplete := Completes.input hr hb hi
        cases hm : reply.missed? <;> simpa [hm] using hcomplete

end Config

namespace Image

variable {image : Image} {c d : Config}

/-- Every instruction that is completed is completed in one of these ways. -/
theorem completes_of_perform {i : Option Command} (h : image.perform i c = .running d) :
    c.Completes i d := by
  by_cases ho : i = some .output
  · subst ho
    exact Config.completes_of_write h
  · by_cases hi : i = some .input
    · subst hi
      exact Config.completes_of_read h
    · have hquiet := image.quiet_perform ho hi c
      rw [h] at hquiet
      exact .quiet ho hi hquiet

theorem completes_of_step (h : image.step c = .running d) :
    c.tick.Completes (image.instruction c) d := by
  rcases image.step_eq_perform c with hp | ⟨-, hp | hp⟩
  · rw [hp] at h
    exact completes_of_perform h
  · simp [hp] at h
  · simp [hp] at h

end Image

/-! ### The machines of a run -/

namespace Image

/-- The machines in which the instructions were fetched that a run completes in at most `n` steps,
in order. -/
def trace (image : Image) : Nat → Config → List Config
  | 0, _ => []
  | n + 1, c =>
    match image.advance n c, image.advance (n + 1) c with
    | .running b, .running _ => trace image n c ++ [b]
    | _, _ => trace image n c

/-- The machines of a run that carried out a command. -/
def uses (image : Image) (command : Command) (n : Nat) (c : Config) : List Config :=
  (image.trace n c).filter (image.instruction · = some command)

variable {image : Image} {c d b : Config} {n k : Nat} {command : Command}

theorem exists_of_advance_succ (h : image.advance (n + 1) c = .running d) :
    ∃ b, image.advance n c = .running b ∧ image.step b = .running d := by
  rw [advance_succ_last] at h
  cases hn : image.advance n c with
  | running b =>
    rw [hn] at h
    exact ⟨b, rfl, h⟩
  | finished b => simp [hn, Progress.andThen] at h
  | failed e b => simp [hn, Progress.andThen] at h

/-- One more step adds the machine that the run has come to, if it completes its instruction. -/
theorem trace_succ (image : Image) (n : Nat) (c : Config) :
    (∃ b d, image.advance n c = .running b ∧ image.step b = .running d ∧
      image.trace (n + 1) c = image.trace n c ++ [b]) ∨
    image.trace (n + 1) c = image.trace n c := by
  rw [trace]
  split
  case h_1 b d hb hd =>
    obtain ⟨b', hb', hd'⟩ := exists_of_advance_succ hd
    obtain rfl := Progress.running.inj (hb.symm.trans hb')
    exact .inl ⟨b, d, hb, hd', rfl⟩
  case h_2 => exact .inr rfl

theorem uses_succ_of_step (h : image.advance n c = .running b) (hd : image.step b = .running d)
    (command : Command) :
    image.uses command (n + 1) c =
      image.uses command n c ++ if image.instruction b = some command then [b] else [] := by
  have hn : image.advance (n + 1) c = .running d := by
    rw [advance_succ_last, h]
    exact hd
  have ht : image.trace (n + 1) c = image.trace n c ++ [b] := by rw [trace, h, hn]
  rw [uses, uses, ht, List.filter_append]
  by_cases hi : image.instruction b = some command <;> simp [hi]

theorem uses_succ_of_ended (h : ∀ d, image.advance (n + 1) c ≠ .running d) (command : Command) :
    image.uses command (n + 1) c = image.uses command n c := by
  rcases image.trace_succ n c with ⟨b, d, hb, hd, -⟩ | ht
  · refine absurd ?_ (h d)
    rw [advance_succ_last, hb]
    exact hd
  · rw [uses, uses, ht]

theorem length_uses_le_succ (image : Image) (command : Command) (n : Nat) (c : Config) :
    (image.uses command n c).length ≤ (image.uses command (n + 1) c).length := by
  rcases image.trace_succ n c with ⟨b, d, hb, hd, -⟩ | ht
  · rw [uses_succ_of_step hb hd, List.length_append]
    exact Nat.le_add_right _ _
  · rw [uses, uses, ht]

/-- The machine that carried out a command after `k` others of its kind is one that the run came to
when it had carried out just those. -/
theorem exists_of_getElem?_uses (h : (image.uses command n c)[k]? = some b) :
    ∃ m d, m < n ∧ image.advance m c = .running b ∧ image.step b = .running d ∧
      image.instruction b = some command ∧ (image.uses command m c).length = k ∧
      image.uses command m c = (image.uses command n c).take k := by
  induction n with
  | zero => simp [uses, trace] at h
  | succ n ih =>
    rcases image.trace_succ n c with ⟨b', d, hb, hd, -⟩ | ht
    · have hu := uses_succ_of_step hb hd command
      rw [hu] at h ⊢
      rcases Nat.lt_or_ge k (image.uses command n c).length with hk | hk
      · rw [List.getElem?_append_left hk] at h
        obtain ⟨m, d', hm, hbm, hd', hi, hl, htake⟩ := ih h
        exact ⟨m, d', by omega, hbm, hd', hi, hl,
          by rw [htake, List.take_append_of_le_length hk.le]⟩
      · -- none of the earlier ones: it is the last instruction
        rw [List.getElem?_append_right hk] at h
        by_cases hi : image.instruction b' = some command
        · rw [if_pos hi] at h ⊢
          obtain ⟨hk', rfl⟩ : k - (image.uses command n c).length = 0 ∧ b' = b := by
            simpa [List.getElem?_singleton] using h
          refine ⟨n, d, by omega, hb, hd, hi, by omega, ?_⟩
          rw [show k = (image.uses command n c).length by omega, List.take_left']
          rfl
        · simp [hi] at h
    · have hu : image.uses command (n + 1) c = image.uses command n c := by rw [uses, uses, ht]
      rw [hu] at h ⊢
      obtain ⟨m, d, hm, hrest⟩ := ih h
      exact ⟨m, d, by omega, hrest⟩

/-! ### Counters and streams -/

/-- The counters and the input of `d`, after `n` completed instructions from `c` on. -/
structure Tally (image : Image) (n : Nat) (c d : Config) : Prop where
  steps_eq : d.state.steps = c.state.steps + n
  bytesWritten_eq :
    d.state.bytesWritten = c.state.bytesWritten + (image.uses .output n c).length
  bytesRead_eq : d.state.bytesRead =
    c.state.bytesRead + (image.uses .input n c).countP (·.input.offered.isSome)
  emptyReads_eq : d.state.emptyReads =
    c.state.emptyReads + (image.uses .input n c).countP (·.input.offered.isNone)
  input_eq : d.input = c.input.after (image.uses .input n c).length

theorem tally_zero (image : Image) (c : Config) : image.Tally 0 c c := by
  constructor <;> simp [uses, trace, Input.after]

/-- A completed instruction is counted once, under its own kind. -/
theorem Tally.succ (h : image.Tally n c b) (hb : image.advance n c = .running b)
    (hd : image.step b = .running d) : image.Tally (n + 1) c d := by
  have hr := uses_succ_of_step hb hd .input
  have hw := uses_succ_of_step hb hd .output
  obtain ⟨hsteps, hwritten, hread, hempty, hinput⟩ := h
  have hcount := completes_of_step hd
  generalize hi : image.instruction b = i at hr hw hcount
  cases hcount with
  | output cell put =>
    constructor <;> simp_all [Config.next, Config.tick, Int.add_assoc]
  | @input reply rest b? i read byte index =>
    have ho : b.input.offered = b? := Input.offered_of_read read byte
    have hrest : (b.input.read 1).2 = rest := congrArg Prod.snd read
    cases b? with
    | none =>
      constructor <;>
        simp_all [Config.next, Config.tick, State.receive, State.store, Input.after, Int.add_assoc]
    | some x =>
      constructor <;>
        simp_all [Config.next, Config.tick, State.receive, State.store, Input.after, Int.add_assoc]
  | quiet notOutput notInput quiet =>
    obtain ⟨h₁, -, -, h₂, h₃, h₄, h₅⟩ := quiet
    constructor <;> simp_all [Config.tick, Int.add_assoc]

theorem tally_advance (h : image.advance n c = .running d) : image.Tally n c d := by
  induction n generalizing d with
  | zero =>
    obtain rfl := Progress.running.inj h
    exact image.tally_zero c
  | succ n ih =>
    obtain ⟨b, hb, hd⟩ := exists_of_advance_succ h
    exact (ih hb).succ hb hd

/-- What the reads of a run are offered is what the input offers, read after read. -/
theorem countP_uses_input (h : image.advance n c = .running d) (p : Input → Bool) :
    (image.uses .input n c).countP (fun b => p b.input) =
      (List.range (image.uses .input n c).length).countP (fun j => p (c.input.after j)) := by
  induction n generalizing d with
  | zero => rfl
  | succ n ih =>
    obtain ⟨b, hb, hd⟩ := exists_of_advance_succ h
    rw [uses_succ_of_step hb hd]
    by_cases hi : image.instruction b = some .input
    · simp [hi, List.range_succ, ih hb, (tally_advance hb).input_eq]
    · simpa [hi] using ih hb

end Image

theorem Image.sink_advance {code : Text} {t : JumpTable} {size n : Nat} {c d : Config}
    (ht : t.Holds code code.length) (hb : code.Balanced) (h : c.Inside code size)
    (hk : c.sink.NeverFails) (hd : (ofTable code t).advance n c = .running d) :
    d.sink = c.sink.after (((ofTable code t).uses .output n c).map (·.state.value)) := by
  induction n generalizing d with
  | zero =>
    obtain rfl := Progress.running.inj hd
    exact (Sink.after_nil _).symm
  | succ n ih =>
    obtain ⟨b, hn, hs⟩ := exists_of_advance_succ hd
    have hcell := (advance_inside ht hb h hn).inRange.cell_eq
    have hsink := ih hn
    have hput :=
      hk.put_after (((ofTable code t).uses .output n c).map (·.state.value)) b.state.value
    rw [← hsink] at hput
    have hu := uses_succ_of_step hn hs .output
    have hcomplete := completes_of_step hs
    generalize hi : (ofTable code t).instruction b = i at hu hcomplete
    cases hcomplete with
    | @output x sink cell put =>
      obtain rfl : x = b.state.value := Except.ok.inj (cell.symm.trans hcell)
      rw [hu, if_pos rfl, List.map_append]
      exact congrArg Prod.snd (put.symm.trans hput)
    | input read byte index =>
      rw [hu, if_neg (by simp), List.append_nil]
      exact hsink
    | quiet notOutput notInput quiet =>
      rw [hu, if_neg notOutput, List.append_nil]
      exact quiet.sink_eq.trans hsink

/-! ### Ends -/

namespace Execution

/-- The run can only come to its end, in a machine that it has run to. -/
def OnlyEnds (x : Execution) : Prop :=
  ∀ n o, x.run n = some o →
    o.error? = none ∧ ∃ m < n, x.image.advance m x.config = .running o.final

theorem onlyEnds_of_error? {code : Text} {t : JumpTable} {size : Nat} {c : Config}
    (ht : t.Holds code code.length) (hb : code.Balanced) (h : c.Inside code size)
    (hnone : ∀ n o, run ⟨Image.ofTable code t, c⟩ n = some o → o.error? = none) :
    OnlyEnds ⟨Image.ofTable code t, c⟩ := by
  rintro n ⟨e?, d⟩ ho
  obtain rfl : e? = none := hnone n _ ho
  rw [run, Progress.outcome?_eq_finished] at ho
  obtain ⟨m, b, hm, hmb, hf⟩ := Image.exists_last_step ho (by simp)
  rcases Image.step_inside ht hb (Image.advance_inside ht hb h hmb) with
    ⟨hf', -⟩ | ⟨b', hf', -⟩ | ⟨_, _, _, -, hf', -⟩
  · rw [hf', Progress.finished.injEq] at hf
    exact ⟨rfl, m, hm, hf ▸ hmb⟩
  · simp [hf'] at hf
  · simp [hf'] at hf

end Execution

end Brainfuck
