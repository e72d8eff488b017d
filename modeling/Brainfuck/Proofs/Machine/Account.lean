import Brainfuck.Proofs.Machine.Trace

/-! The accounts of a run that reads bytes in memory and writes to a sink that never fails. At every
moment the reads done so far have taken the bytes of the input one by one, and found none once these
were used up; and the sink has what the writes done so far were given, each byte passed on at
once. -/

namespace Brainfuck

namespace Image

variable {image : Image} {b d : Config}

theorem tape_of_step_input (hi : b.state.InRange) (h : image.instruction b = some .input)
    (hd : image.step b = .running d) :
    d.state.tape = b.state.tape.setIfInBounds b.state.pointer.toNat (b.input.offered.getD 0) ∧
      d.state.pointer = b.state.pointer := by
  have hcomplete := completes_of_step hd
  rw [h] at hcomplete
  cases hcomplete with
  | @input reply rest b? i read byte index =>
    obtain rfl : i = b.state.pointer.toNat := Except.ok.inj (index.symm.trans hi.cellIndex_eq)
    rw [Input.offered_of_read (i := b.input) read byte]
    cases b? <;> exact ⟨rfl, rfl⟩
  | quiet notOutput notInput quiet => exact absurd rfl notInput

theorem put_of_step_output (hi : b.state.InRange) (h : image.instruction b = some .output)
    (hd : image.step b = .running d) :
    ∃ sink, b.sink.write [b.state.value] = (none, sink) ∧ sink.flush = (none, d.sink) := by
  have hcomplete := completes_of_step hd
  rw [h] at hcomplete
  cases hcomplete with
  | @output x sink cell put =>
    obtain rfl : x = b.state.value := Except.ok.inj (cell.symm.trans hi.cell_eq)
    replace put : b.sink.put b.state.value = (none, sink) := put
    rw [Sink.put] at put
    cases hw : b.sink.write [b.state.value] with
    | mk f? w =>
      rw [hw] at put
      cases f? with
      | none => exact ⟨w, rfl, put⟩
      | some f => simp at put
  | quiet notOutput notInput quiet => exact absurd rfl notOutput

end Image

namespace Execution

/-- The streams and the counters of the machine `d` that `x`, a run from the state `s` with `bytes`
to read, has come to after `n` steps. -/
structure Accounts (x : Execution) (s : State) (bytes : List UInt8) (sink : Sink) (n : Nat)
    (d : Config) : Prop where
  steps_eq : d.state.steps = s.steps + n
  bytesRead_eq : d.state.bytesRead =
    s.bytesRead + (min (x.image.uses .input n x.config).length bytes.length : Nat)
  emptyReads_eq : d.state.emptyReads = s.emptyReads +
    ((x.image.uses .input n x.config).length -
      min (x.image.uses .input n x.config).length bytes.length : Nat)
  unread_eq : d.input = .memory (.bytes
    (bytes.drop (min (x.image.uses .input n x.config).length bytes.length)))
  /-- The reads have set the current cell to one byte after the other, and then to zero. -/
  stored : ∀ j b, (x.image.uses .input n x.config)[j]? = some b → ∃ b',
    x.image.step b = .running b' ∧ b'.state.value = bytes.getD j 0 ∧
      b'.state.tape = b.state.tape.setIfInBounds b.state.pointer.toNat (bytes.getD j 0)
  bytesWritten_eq : d.state.bytesWritten =
    s.bytesWritten + (x.image.uses .output n x.config).length
  sink_eq : d.sink = sink.after ((x.image.uses .output n x.config).map (·.state.value))
  /-- Each byte was written, and then passed on before the next instruction. -/
  passedOn : ∀ b ∈ x.image.uses .output n x.config, ∃ w b', x.image.step b = .running b' ∧
    b.sink.write [b.state.value] = (none, w) ∧ w.flush = (none, b'.sink)

variable {code : Text} {t : JumpTable}

/-- As many reads of bytes in memory deliver one as there are bytes. -/
theorem countP_uses_memory {image : Image} {n : Nat} {c d : Config} {bytes : List UInt8}
    (hc : c.input = .memory (.bytes bytes)) (hd : image.advance n c = .running d) :
    (image.uses .input n c).countP (·.input.offered.isSome) =
      min (image.uses .input n c).length bytes.length := by
  have hall := countP_range_any bytes (fun _ => true) (image.uses .input n c).length
  rw [Image.countP_uses_input hd fun i => i.offered.isSome, hc]
  simpa [Input.offered_after_memory] using hall

theorem countP_isNone_offered (l : List Config) :
    l.countP (·.input.offered.isNone) = l.length - l.countP (·.input.offered.isSome) := by
  have hsum := List.length_eq_countP_add_countP (fun b : Config => b.input.offered.isSome) (l := l)
  simp only [Bool.not_eq_true, Option.isSome_eq_false_iff, Bool.decide_eq_true] at hsum
  omega

theorem accounts_of_running (ht : t.Holds code code.length) (hb : code.Balanced) {size n : Nat}
    {c d : Config} {bytes : List UInt8} (h : c.Inside code size)
    (hc : c.input = .memory (.bytes bytes)) (hk : c.sink.NeverFails)
    (hd : (Image.ofTable code t).advance n c = .running d) :
    Accounts ⟨Image.ofTable code t, c⟩ c.state bytes c.sink n d := by
  have htally := Image.tally_advance hd
  have hread := countP_uses_memory hc hd
  constructor
  · exact htally.steps_eq
  · rw [htally.bytesRead_eq, hread]
  · rw [htally.emptyReads_eq, countP_isNone_offered, hread]
  · rw [htally.input_eq, hc, Input.after_memory]
    congr 2
    simp [List.drop_eq_drop_iff]
  · intro j b hj
    obtain ⟨m, b', -, hm, hb', hi, hlen, -⟩ := Image.exists_of_getElem?_uses hj
    have hr := (Image.advance_inside ht hb h hm).inRange
    have hoffer : b.input.offered.getD 0 = bytes.getD j 0 := by
      rw [(Image.tally_advance hm).input_eq, hlen, hc, Input.offered_after_memory,
        List.getD_eq_getElem?_getD]
    obtain ⟨htape, hpointer⟩ := Image.tape_of_step_input hr hi hb'
    rw [hoffer] at htape
    refine ⟨b', hb', ?_, htape⟩
    have hlt : b.state.pointer.toNat < b.state.tape.size := by
      have := hr.pointer_nonneg
      have := hr.pointer_lt
      omega
    simp [State.value, htape, hpointer, hlt]
  · exact htally.bytesWritten_eq
  · exact Image.sink_advance ht hb h hk hd
  · intro b hmem
    obtain ⟨j, hj⟩ := List.mem_iff_getElem?.mp hmem
    obtain ⟨m, b', -, hm, hb', hi, -⟩ := Image.exists_of_getElem?_uses hj
    have hr := (Image.advance_inside ht hb h hm).inRange
    obtain ⟨w, hw, hf⟩ := Image.put_of_step_output hr hi hb'
    exact ⟨w, b', hb', hw, hf⟩

/-- The accounts of a program that reads bytes in memory and writes to a sink that never fails are
exact after any number of steps, and it can only end by coming to its end. -/
theorem accounts_of_resolve (h : JumpTable.resolve code = .ok t) (s : State) (hs : s.InRange)
    (memory : Memory) (tapeSize : Int) (bytes : List UInt8) (sink : Sink) (hk : sink.NeverFails) :
    ∃ x, start memory code none (some s) tapeSize (.memory (.bytes bytes)) sink = .ok x ∧
      (∀ n d, x.image.advance n x.config = .running d → x.Accounts s bytes sink n d) ∧
      x.OnlyEnds := by
  have ht := JumpTable.holds_of_resolve h
  have hb := JumpTable.balanced_of_resolve h
  have hin := Config.inside_start code hs (.memory (.bytes bytes)) sink
  refine ⟨_, start_of_resolve h memory s tapeSize _ sink, fun n d hd => ?_, ?_⟩
  · have ha := accounts_of_running ht hb hin rfl hk hd
    exact ⟨ha.steps_eq, ha.bytesRead_eq, ha.emptyReads_eq, ha.unread_eq, ha.stored,
      ha.bytesWritten_eq, ha.sink_eq, ha.passedOn⟩
  · exact onlyEnds_of_error? ht hb hin fun n o ho =>
      error?_of_reliable ht hb hin ⟨⟨_, rfl⟩, hk⟩ ho

/-- A loop that writes what it reads, with a read beyond the end of its input. -/
theorem accounts_of_resolve_copy :
    ∃ x, start (.upTo 9) (Text.ofString ",[.,]") none (some { tape := #[0, 9], pointer := 1 }) 0
        (.memory (.bytes [3])) { flushable := false } = .ok x ∧
      (∀ n d, x.image.advance n x.config = .running d →
        x.Accounts { tape := #[0, 9], pointer := 1 } [3] { flushable := false } n d) ∧
      x.OnlyEnds :=
  accounts_of_resolve rfl { tape := #[0, 9], pointer := 1 } ⟨by decide, by decide⟩ _ 0 [3] _
    ⟨rfl, fun _ => rfl⟩

end Execution

end Brainfuck
