import Brainfuck.Proofs.Machine.Safety
import Brainfuck.Proofs.Machine.Simulation

/-! What a run does to its streams. The input changes by reads of one element only, and the sink by
the bytes that its writes accept. A run from memory to a sink that never fails has nothing to fail
at. -/

namespace Brainfuck

/-! ### Input -/

namespace Image

theorem input_perform (image : Image) (i : Option Command) (c : Config) :
    (image.perform i c).config.input = c.input ∨
      (image.perform i c).config.input = (c.input.read 1).2 := by
  by_cases hi : i = some .input
  · subst hi
    exact .inr c.streams_read.1
  · by_cases ho : i = some .output
    · subst ho
      exact .inl c.streams_write.1
    · exact .inl (image.quiet_perform ho hi c).input_eq

theorem input_step (image : Image) (c : Config) :
    (image.step c).config.input = c.input ∨
      (image.step c).config.input = (c.input.read 1).2 := by
  rcases image.step_eq_perform c with h | ⟨-, h | h⟩
  · rw [h]
    exact image.input_perform _ c.tick
  · exact .inl (by rw [h]; rfl)
  · exact .inl (by rw [h]; rfl)

end Image

/-! ### Output -/

theorem Sink.written_put (s : Sink) (b : UInt8) :
    (s.put b).2.written.toList =
      s.written.toList ++ if (s.write [b]).1 = none then [b] else [] := by
  have hflush : ∀ s : Sink, s.flush.2.written = s.written := by
    intro s
    unfold flush
    repeat' split
    all_goals rfl
  unfold put
  cases hw : s.write [b] with
  | mk f? sink =>
    unfold write at hw
    split_ifs at hw with hx
    · obtain ⟨rfl, rfl⟩ := Prod.mk.inj hw
      simp
    · obtain ⟨rfl, rfl⟩ := Prod.mk.inj hw
      simp [hflush]

/-- What a write of the cell adds to the sink: the byte, if the sink takes it. -/
def Config.accepted (c : Config) : List UInt8 :=
  match c.state.cell with
  | .error _ => []
  | .ok b => if (c.sink.write [b]).1 = none then [b] else []

theorem Config.written_write (c : Config) :
    c.write.config.sink.written.toList = c.sink.written.toList ++ c.accepted := by
  unfold write accepted
  cases c.state.cell with
  | error e => simp [Progress.config]
  | ok b =>
    have hp := c.sink.written_put b
    simp only
    cases hput : c.sink.put b with
    | mk f? sink =>
      rw [hput] at hp
      cases f? <;> exact hp

namespace Image

/-- The bytes that the sink takes while at most `n` instructions are carried out, in order. -/
def accepted (image : Image) : Nat → Config → List UInt8
  | 0, _ => []
  | n + 1, c =>
    (if image.instruction c = some .output then c.accepted else []) ++
      match image.step c with
      | .running d => accepted image n d
      | _ => []

variable (image : Image)

theorem written_perform (i : Option Command) (c : Config) :
    (image.perform i c).config.sink.written.toList =
      c.sink.written.toList ++ if i = some .output then c.accepted else [] := by
  by_cases ho : i = some .output
  · subst ho
    simpa [perform] using c.written_write
  · have hsink : (image.perform i c).config.sink = c.sink := by
      by_cases hi : i = some .input
      · subst hi
        exact c.streams_read.2
      · exact (image.quiet_perform ho hi c).sink_eq
    simp [hsink, ho]

theorem written_step (c : Config) :
    (image.step c).config.sink.written.toList =
      c.sink.written.toList ++ if image.instruction c = some .output then c.accepted else [] := by
  rcases image.step_eq_perform c with h | ⟨hi, h | h⟩
  · rw [h]
    exact image.written_perform _ c.tick
  · simp [h, hi, Progress.config]
  · simp [h, hi, Progress.config]

/-- The sink holds what it held before and the bytes that it took, nothing else. -/
theorem written_advance (n : Nat) (c : Config) :
    (image.advance n c).config.sink.written.toList =
      c.sink.written.toList ++ image.accepted n c := by
  induction n generalizing c with
  | zero => simp [accepted, Progress.config]
  | succ n ih =>
    have hstep := image.written_step c
    rw [advance_succ, accepted, ← List.append_assoc, ← hstep]
    cases hd : image.step c with
    | running d => exact ih d
    | finished d => simp [Progress.andThen]
    | failed e d => simp [Progress.andThen]

end Image

/-! ### Streams that never fail -/

namespace Config

/-- The input is in memory and the sink takes everything. -/
structure Reliable (c : Config) : Prop where
  input_eq : ∃ unread, c.input = .memory unread
  sink_neverFails : c.sink.NeverFails

variable {c d : Config}

theorem Reliable.not_refuses (h : c.Reliable) (command : Command) (e : Error) :
    ¬ c.Refuses command e := by
  obtain ⟨unread, hu⟩ := h.input_eq
  have hread : (c.input.read 1).1 = .data (unread.take 1) := by
    rw [hu]
    rfl
  have hput : (c.sink.put c.state.value).1 = none := by rw [h.sink_neverFails.put]
  rw [Sink.put] at hput
  intro hr
  cases hr with
  | write hf =>
    cases hw : c.sink.write [c.state.value] with
    | mk f? sink =>
      rw [hw] at hf hput
      obtain rfl : f? = _ := hf
      simp at hput
  | flush hw hf =>
    cases hs : c.sink.write [c.state.value] with
    | mk f? sink =>
      rw [hs] at hw hf hput
      obtain rfl : f? = none := hw
      simp [hf] at hput
  | read hf => simp [hread] at hf
  | characters hx hlt =>
    rw [hread, Reply.data.injEq] at hx
    have hl := unread.length_take 1
    rw [hx, Source.length] at hl
    omega

theorem Reliable.of_step {image : Image} (h : c.Reliable) (hd : image.step c = .running d) :
    d.Reliable := by
  refine ⟨?_, Image.neverFails_of_step h.sink_neverFails hd⟩
  obtain ⟨unread, hu⟩ := h.input_eq
  have hi := image.input_step c
  rw [hd, hu] at hi
  rcases hi with hi | hi
  · exact ⟨unread, hi⟩
  · exact ⟨unread.drop 1, hi⟩

end Config

/-- A safe program on streams that never fail can only come to its end. -/
theorem Execution.error?_of_reliable {code : Text} {t : JumpTable} {size n : Nat} {c : Config}
    {o : Outcome} (ht : t.Holds code code.length) (hb : code.Balanced) (hi : c.Inside code size)
    (hc : c.Reliable) (ho : run ⟨Image.ofTable code t, c⟩ n = some o) : o.error? = none := by
  have hsafe := safeAfter_of_inside ht hb hi n
  rw [SafeAfter] at hsafe
  rw [run] at ho
  cases hn : (Image.ofTable code t).advance n c with
  | running d => simp [hn, Progress.outcome?] at ho
  | finished d =>
    rw [hn] at ho
    obtain rfl := Option.some.inj ho
    rfl
  | failed e d =>
    rw [hn] at hsafe
    obtain ⟨-, m, b, command, -, hm, -, -, hr⟩ := hsafe
    have hreliable : b.Reliable := Image.advance_invariant (fun _ _ h hd => h.of_step hd) hc hm
    exact absurd hr (hreliable.not_refuses command e)

end Brainfuck
