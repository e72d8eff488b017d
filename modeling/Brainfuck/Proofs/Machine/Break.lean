import Brainfuck.Proofs.Machine.Trace

/-! Output that breaks. A program sees nothing of its sink until the sink fails. So on a sink that
fails after `k` writes, or flushes, it runs as on one that never fails, up to the write that comes
after `k` others, and there it stops. -/

namespace Brainfuck

open Sink (Request limited)

namespace Image

variable {image : Image} {code : Text} {t : JumpTable} {size n k limit : Nat} {c b : Config}
  {r : Request}

/-- A write in a machine whose sink never fails is completed. -/
theorem exists_step_output (hi : b.state.InRange) (hk : b.sink.NeverFails)
    (h : image.instruction b = some .output) : ∃ d, image.step b = .running d := by
  have hcell : b.tick.state.cell = .ok b.state.value := hi.cell_eq
  have hput : b.tick.sink.put b.state.value = (none, b.sink.after [b.state.value]) :=
    hk.put b.state.value
  rw [step_of_instruction h]
  simp only [perform, Config.write, hcell, hput]
  exact ⟨_, rfl⟩

/-- A step sees the limit of the sink only if it writes and the limit is reached. -/
theorem step_limited (hk : b.sink.NeverFails)
    (h : image.instruction b = some .output → b.sink.done r < limit) :
    image.step (b.relay (limited r limit) id) =
      (image.step b).map (Config.relay (limited r limit) id) := by
  refine image.step_relay (fun ho x => ?_) fun _ _ => rfl
  rw [Sink.put_limited_of_lt hk (h ho), hk.put]

/-- Until more than `k` writes are done, a limit that `k` writes reach makes no difference. -/
theorem advance_limited (ht : t.Holds code code.length) (hb : code.Balanced)
    (h : c.Inside code size) (hk : c.sink.NeverFails) (hf : r = .flush → c.sink.flushable)
    (hn : ((ofTable code t).uses .output n c).length ≤ k) :
    (ofTable code t).advance n (c.relay (limited r (c.sink.done r + k)) id) =
      ((ofTable code t).advance n c).map (Config.relay (limited r (c.sink.done r + k)) id) := by
  induction n with
  | zero => rfl
  | succ n ih =>
    rw [advance_succ_last, advance_succ_last, ih ((length_uses_le_succ _ _ n c).trans hn)]
    cases hm : (ofTable code t).advance n c with
    | finished b => rfl
    | failed e b => rfl
    | running b =>
      have hsink := sink_advance ht hb h hk hm
      have hkb : b.sink.NeverFails := hsink ▸ hk.after _
      refine step_limited hkb fun ho => ?_
      -- the write at hand is one of the `k`
      obtain ⟨d, hd⟩ := exists_step_output (advance_inside ht hb h hm).inRange hkb ho
      rw [uses_succ_of_step hm hd, if_pos ho, List.length_append, List.length_singleton] at hn
      rw [hsink, Sink.done_after hf, List.length_map]
      omega

/-- The write after `k` others finds the sink at its limit. -/
theorem step_limited_of_le (hi : b.state.InRange) (hk : b.sink.NeverFails)
    (hf : r = .flush → b.sink.flushable) (ho : image.instruction b = some .output)
    (hl : limit ≤ b.sink.done r) :
    ∃ sink, image.step (b.relay (limited r limit) id) =
        .failed (.stream b.sink.fault) ⟨b.tick.state, b.input, sink, b.missed⟩ ∧
      sink.written.toList = b.sink.written.toList ++ [b.state.value].take (r.stored 0) := by
  obtain ⟨sink, hput, hw⟩ := Sink.put_limited_of_le hk hf hl b.state.value
  refine ⟨sink, ?_, hw⟩
  have ho' : image.instruction (b.relay (limited r limit) id) = some .output := ho
  have hcell : (b.relay (limited r limit) id).tick.state.cell = .ok b.state.value := hi.cell_eq
  rw [step_of_instruction ho', perform, Config.write, hcell]
  simp only [Config.tick, Config.relay, hput]
  rfl

end Image

namespace Execution

/-- The run `y`, whose sink fails at a request once `k` of its kind have succeeded, is the run `x`
from the state `s` to a sink that never fails, cut short at its write after `k` others. -/
structure CutShort (x y : Execution) (s : State) (sink : Sink) (r : Request) (k : Nat) :
    Prop where
  /-- With no more than `k` writes nothing differs but what the sink would do next. -/
  spared : ∀ n, (x.image.uses .output n x.config).length ≤ k →
    y.run n = (x.run n).map (Outcome.map (Config.relay (limited r (sink.done r + k)) id))
  /-- Another write fails, in the machine in which `x` carries it out. -/
  cut : ∀ n b, (x.image.uses .output n x.config)[k]? = some b →
    ∃ m d, y.run m = some ⟨some (.stream sink.fault), d⟩ ∧
      d.state = { b.state with steps := b.state.steps + 1 } ∧
      d.state.bytesWritten = s.bytesWritten + k ∧ d.input = b.input ∧
      d.sink.written.toList = sink.written.toList ++
        ((x.image.uses .output n x.config).map (·.state.value)).take (r.stored k)

variable {code : Text} {t : JumpTable}

theorem cutShort_limited (ht : t.Holds code code.length) (hb : code.Balanced) {c : Config}
    {size : Nat} (h : c.Inside code size) (hk : c.sink.NeverFails) {r : Request}
    (hf : r = .flush → c.sink.flushable) (k : Nat) :
    CutShort ⟨Image.ofTable code t, c⟩
      ⟨Image.ofTable code t, c.relay (limited r (c.sink.done r + k)) id⟩ c.state c.sink r k := by
  refine ⟨fun n hn => ?_, fun n b hnb => ?_⟩
  · rw [run, run, Image.advance_limited ht hb h hk hf hn, Progress.outcome?_map]
  · obtain ⟨m, b', -, hm, -, ho, hlen, hu⟩ := Image.exists_of_getElem?_uses hnb
    have hin := Image.advance_inside ht hb h hm
    have hsink := Image.sink_advance ht hb h hk hm
    have hdone : b.sink.done r = c.sink.done r + k := by
      rw [hsink, Sink.done_after hf, List.length_map, hlen]
    obtain ⟨sink, hstep, hw⟩ := Image.step_limited_of_le (r := r) hin.inRange (hsink ▸ hk.after _)
      (fun hr => by rw [hsink]; exact hf hr) ho hdone.ge
    have hfault : b.sink.fault = c.sink.fault := by rw [hsink]; rfl
    refine ⟨m + 1, ⟨b.tick.state, b.input, sink, b.missed⟩, ?_, rfl, ?_, rfl, ?_⟩
    · rw [run, Progress.outcome?_eq_failed, Image.advance_succ_last,
        Image.advance_limited ht hb h hk hf hlen.le, hm]
      exact hfault ▸ hstep
    · have hwritten := (Image.tally_advance hm).bytesWritten_eq
      rwa [hlen] at hwritten
    · have hv : (((Image.ofTable code t).uses .output n c).map (·.state.value))[k]? =
          some b.state.value := by rw [List.getElem?_map, hnb, Option.map_some]
      have hbw : b.sink.written.toList = c.sink.written.toList ++
          (((Image.ofTable code t).uses .output n c).map (·.state.value)).take k := by
        rw [hsink, hu, List.map_take]
        simp [Sink.after]
      rw [hw, hbw, List.append_assoc]
      cases r with
      | write => simp [Request.stored]
      | flush => simp [Request.stored, List.take_add_one, hv]

/-- A sink that fails after `k` writes, or after `k` flushes, only cuts a run short: up to there all
is as on a sink that never fails. -/
theorem cutShort_of_resolve (h : JumpTable.resolve code = .ok t) (s : State) (hs : s.InRange)
    (memory : Memory) (tapeSize : Int) (input : Input) (sink : Sink) (hk : sink.NeverFails)
    (r : Request) (hf : r = .flush → sink.flushable) (k : Nat) :
    ∃ x y, start memory code none (some s) tapeSize input sink = .ok x ∧
      start memory code none (some s) tapeSize input (sink.limited r (sink.done r + k)) = .ok y ∧
      x.CutShort y s sink r k := by
  refine ⟨_, _, start_of_resolve h memory s tapeSize input sink,
    start_of_resolve h memory s tapeSize input _, ?_⟩
  have hcut := cutShort_limited (JumpTable.holds_of_resolve h) (JumpTable.balanced_of_resolve h)
    (Config.inside_start code hs input sink) hk hf k
  exact ⟨hcut.spared, hcut.cut⟩

/-- A loop that writes without end, to a sink that can be flushed twice. -/
theorem cutShort_of_resolve_second_flush :
    ∃ x y, start (.upTo 9) (Text.ofString "+[.]") none (some { tape := #[0] }) 0
        (.memory (.bytes [])) {} = .ok x ∧
      start (.upTo 9) (Text.ofString "+[.]") none (some { tape := #[0] }) 0 (.memory (.bytes []))
        { flushLimit := some 2 } = .ok y ∧
      x.CutShort y { tape := #[0] } {} .flush 2 :=
  cutShort_of_resolve rfl { tape := #[0] } ⟨by decide, by decide⟩ _ 0 _ {} ⟨rfl, fun _ => rfl⟩
    .flush (fun _ => rfl) 2

end Execution

end Brainfuck
