import Brainfuck.Proofs.Machine.Account
import Brainfuck.Proofs.Machine.Reading

/-! The input that a run consumes. What a program has not read cannot have made a difference: if it
comes to its end, it does so on every input that starts with the bytes it has read, and leaves the
rest. And since cells become zero at the end of the input, zeros behind it make no difference
either. -/

namespace Brainfuck

namespace Input

/-- The bytes in memory with the last `r` of them replaced. -/
def exchange (r : Nat) (rest : List UInt8) : Input → Input
  | .memory (.bytes bytes) => .memory (.bytes (bytes.take (bytes.length - r) ++ rest))
  | i => i

theorem read_exchange {r : Nat} {bytes : List UInt8} (h : r < bytes.length) (rest : List UInt8) :
    ((Input.memory (.bytes bytes)).exchange r rest).read 1 =
      (((Input.memory (.bytes bytes)).read 1).1,
        ((Input.memory (.bytes bytes)).read 1).2.exchange r rest) := by
  cases bytes with
  | nil => simp at h
  | cons b bytes =>
    have hlength : (b :: bytes).length - r = bytes.length - r + 1 := by
      rw [List.length_cons] at h ⊢
      omega
    simp only [exchange, hlength, List.take_succ_cons, List.cons_append]
    rfl

/-- With just the bytes replaced that come after the common ones, an input becomes the other. -/
theorem exchange_memory {k : Nat} {bytes bytes' : List UInt8} (hk : k ≤ bytes.length)
    (h : bytes'.take k = bytes.take k) :
    (Input.memory (.bytes bytes)).exchange (bytes.length - k) (bytes'.drop k) =
      .memory (.bytes bytes') := by
  rw [exchange, Nat.sub_sub_self hk, ← h, List.take_append_drop]

end Input

namespace Config

def refeed (f : Input → Input) (c : Config) : Config :=
  { c with input := f c.input }

variable {f : Input → Input} {c : Config}

theorem transparent_refeed (f : Input → Input) : Transparent (refeed f) := by
  constructor <;> intros <;> rfl

theorem refeed_write (f : Input → Input) (c : Config) :
    (c.refeed f).write = c.write.map (refeed f) := by
  simp only [write, (transparent_refeed f).cell_eq]
  cases c.state.cell with
  | error e => rfl
  | ok b =>
    simp only [refeed]
    cases c.sink.put b with
    | mk f? sink => cases f? <;> rfl

theorem refeed_read (h : (f c.input).read 1 = ((c.input.read 1).1, f (c.input.read 1).2)) :
    (c.refeed f).read = c.read.map (refeed f) := by
  simp only [read, refeed, h]
  cases (c.input.read 1).1.byte? with
  | error e => rfl
  | ok b? =>
    simp only
    cases State.cellIndex c.state.tape.size c.state.pointer <;> rfl

end Config

namespace Image

variable {image : Image} {code : Text} {t : JumpTable} {size n r : Nat} {c b : Config}
  {bytes rest : List UInt8}

theorem step_refeed {f : Input → Input}
    (h : image.instruction c = some .input →
      (f c.input).read 1 = ((c.input.read 1).1, f (c.input.read 1).2)) :
    image.step (c.refeed f) = (image.step c).map (Config.refeed f) :=
  step_map (Config.transparent_refeed f) (fun _ => c.tick.refeed_write f)
    fun hi => Config.refeed_read (c := c.tick) (h hi)

theorem exists_step_input (hi : b.state.InRange) (hb : b.input = .memory (.bytes bytes))
    (h : image.instruction b = some .input) : ∃ d, image.step b = .running d := by
  have hin : b.tick.state.InRange := ⟨hi.pointer_nonneg, hi.pointer_lt⟩
  have hbyte : (b.tick.input.read 1).1.byte? = .ok bytes.head? := by
    rw [show b.tick.input = .memory (.bytes bytes) from hb]
    exact Input.byte?_read_memory bytes
  rw [step_of_instruction h]
  exact ⟨_, Config.read_of_byte? hin rfl hbyte⟩

/-- Until more bytes are read than the inputs have in common, what follows makes no difference. -/
theorem advance_exchange (ht : t.Holds code code.length) (hb : code.Balanced)
    (h : c.Inside code size) (hc : c.input = .memory (.bytes bytes)) (rest : List UInt8)
    (hn : ((ofTable code t).uses .input n c).length + r ≤ bytes.length) :
    (ofTable code t).advance n (c.refeed (Input.exchange r rest)) =
      ((ofTable code t).advance n c).map (Config.refeed (Input.exchange r rest)) := by
  induction n with
  | zero => rfl
  | succ n ih =>
    have hle := length_uses_le_succ (ofTable code t) .input n c
    rw [advance_succ_last, advance_succ_last, ih (by omega)]
    cases hm : (ofTable code t).advance n c with
    | finished b => rfl
    | failed e b => rfl
    | running b =>
      refine step_refeed fun hi => ?_
      have hinput : b.input =
          .memory (.bytes (bytes.drop ((ofTable code t).uses .input n c).length)) := by
        rw [(tally_advance hm).input_eq, hc, Input.after_memory]
      -- the read at hand is one of those that the inputs have in common
      obtain ⟨d, hd⟩ := exists_step_input (advance_inside ht hb h hm).inRange hinput hi
      rw [uses_succ_of_step hm hd, if_pos hi, List.length_append, List.length_singleton] at hn
      rw [hinput]
      exact Input.read_exchange (by rw [List.length_drop]; omega) rest

/-- A program that comes to its end does so on any input with the bytes that it has read. -/
theorem advance_exchange_of_finished (ht : t.Holds code code.length) (hb : code.Balanced)
    (h : c.Inside code size) (hc : c.input = .memory (.bytes bytes)) {d : Config}
    (hd : (ofTable code t).advance n c = .finished d) {k : Nat}
    (hempty : d.state.emptyReads = c.state.emptyReads)
    (hread : d.state.bytesRead = c.state.bytesRead + k) {bytes' : List UInt8}
    (hsame : bytes'.take k = bytes.take k) :
    (ofTable code t).advance n { c with input := .memory (.bytes bytes') } =
      .finished { d with input := .memory (.bytes (bytes'.drop k)) } := by
  obtain ⟨m, b, hm, hmb, hstep⟩ := exists_last_step hd (by simp)
  obtain rfl := eq_of_step_finished hstep
  have hfinished : (ofTable code t).advance (m + 1) c = .finished d := by
    rw [advance_succ_last, hmb]
    exact hstep
  have htally := tally_advance hmb
  -- no read was empty, so the bytes read are the reads
  obtain ⟨hlength, hk⟩ : ((ofTable code t).uses .input m c).length = k ∧ k ≤ bytes.length := by
    have hsome := Execution.countP_uses_memory hc hmb
    have hbytes := htally.bytesRead_eq
    have hnone := htally.emptyReads_eq
    rw [Execution.countP_isNone_offered, hsome] at hnone
    rw [hsome] at hbytes
    omega
  have hended : ((ofTable code t).uses .input (m + 1) c).length = k := by
    rw [uses_succ_of_ended (by simp [hfinished]), hlength]
  have hadvance := advance_exchange (r := bytes.length - k) ht hb h hc (bytes'.drop k)
    (by rw [hended]; omega)
  have hstart : c.refeed (Input.exchange (bytes.length - k) (bytes'.drop k)) =
      { c with input := .memory (.bytes bytes') } := by
    rw [Config.refeed, hc, Input.exchange_memory hk hsame]
  have hend : d.refeed (Input.exchange (bytes.length - k) (bytes'.drop k)) =
      { d with input := .memory (.bytes (bytes'.drop k)) } := by
    rw [Config.refeed, htally.input_eq, hc, hlength, Input.after_memory, Input.exchange,
      List.length_drop, Nat.sub_self, List.take_zero, List.nil_append]
  rw [hstart, hfinished, Progress.map, hend] at hadvance
  obtain ⟨i, rfl⟩ := Nat.exists_eq_add_of_le (show m + 1 ≤ n from hm)
  rw [advance_add, hadvance]
  rfl

end Image

namespace Execution

theorem ReadsAlike.exists_run {x y : Execution} (h : x.ReadsAlike y) {n : Nat} {d : Config}
    (hd : x.run n = some ⟨none, d⟩) : ∃ d', y.run n = some ⟨none, d'⟩ ∧ d'.blind = d.blind := by
  have hside := h.sideBySide n
  rw [run, Progress.outcome?_eq_finished] at hd
  rw [hd] at hside
  cases hy : y.image.advance n y.config with
  | finished d' =>
    rw [hy] at hside
    exact ⟨d', by rw [run, hy]; rfl, (Progress.finished.inj hside).symm⟩
  | running d' => simp [hy, Progress.map] at hside
  | failed e d' => simp [hy, Progress.map] at hside

variable {code : Text} {t : JumpTable}

/-- A run that comes to its end depends only on the input it has consumed. If it has read `k` bytes
and never missed one, it is the same on all inputs with these `k` bytes, whose further bytes it
leaves; and whether or not it has missed one, zeros at the end of its input change nothing but the
reads that count as empty. -/
theorem run_eq_of_consumed (h : JumpTable.resolve code = .ok t) (s : State) (hs : s.InRange)
    (memory : Memory) (tapeSize : Int) (bytes : List UInt8) (sink : Sink) (hk : sink.NeverFails) :
    ∃ x, start memory code none (some s) tapeSize (.memory (.bytes bytes)) sink = .ok x ∧
      ∀ n d, x.run n = some ⟨none, d⟩ →
        (∀ (k : Nat) (bytes' : List UInt8), d.state.emptyReads = s.emptyReads →
          d.state.bytesRead = s.bytesRead + k → bytes'.take k = bytes.take k →
          ∃ y, start memory code none (some s) tapeSize (.memory (.bytes bytes')) sink = .ok y ∧
            y.run n = some ⟨none, { d with input := .memory (.bytes (bytes'.drop k)) }⟩) ∧
        ∀ m : Nat, ∃ z d', start memory code none (some s) tapeSize
            (.memory (.bytes (bytes ++ List.replicate m 0))) sink = .ok z ∧
          z.run n = some ⟨none, d'⟩ ∧ d'.blind = d.blind := by
  have ht := JumpTable.holds_of_resolve h
  have hb := JumpTable.balanced_of_resolve h
  have hstart := fun input => start_of_resolve h memory s tapeSize input sink
  refine ⟨_, hstart _, fun n d hd => ⟨fun k bytes' hempty hread hsame => ?_, fun m => ?_⟩⟩
  · have hfinished := Image.advance_exchange_of_finished ht hb
      (Config.inside_start code hs (.memory (.bytes bytes)) sink) rfl
      (Progress.outcome?_eq_finished.mp hd) hempty hread hsame
    exact ⟨_, hstart _, Progress.outcome?_eq_finished.mpr hfinished⟩
  · have halike := readsAlike_of_supplies ht hb hs hk (Input.supplies_memory bytes)
      (Input.supplies_memory_append_zeros bytes m)
    obtain ⟨d', hd', hblind⟩ := halike.exists_run hd
    exact ⟨_, d', hstart _, hd', hblind⟩

/-- A loop that copies its input up to a zero byte leaves what follows, whatever it is; and the end
of the input ends it like the first of any number of zero bytes. -/
theorem run_eq_of_consumed_copy :
    (∃ y, start (.upTo 9) (Text.ofString ",[.,]") none (some { tape := #[0] }) 0
        (.memory (.bytes [3, 0, 9, 9])) {} = .ok y ∧
      y.run 6 = some ⟨none, {
        state := { tape := #[0], position := 5, steps := 5, bytesRead := 2, bytesWritten := 1 }
        input := .memory (.bytes [9, 9])
        sink := { written := #[3], writes := 1, flushes := 1 } }⟩) ∧
    ∃ z d, start (.upTo 9) (Text.ofString ",[.,]") none (some { tape := #[0] }) 0
        (.memory (.bytes [3, 0, 0])) {} = .ok z ∧
      z.run 6 = some ⟨none, d⟩ ∧ d.state.tape = #[0] ∧
      d.state.bytesRead + d.state.emptyReads = 2 := by
  have hcode : JumpTable.resolve (Text.ofString ",[.,]") = .ok _ := rfl
  have hs : State.InRange { tape := #[0] } := ⟨by decide, by decide⟩
  have hk : Sink.NeverFails {} := ⟨rfl, fun _ => rfl⟩
  constructor
  · obtain ⟨x, hx, hrun⟩ := run_eq_of_consumed hcode _ hs (.upTo 9) 0 [3, 0, 7] {} hk
    obtain rfl := Except.ok.inj hx
    refine (hrun 6 {
      state := { tape := #[0], position := 5, steps := 5, bytesRead := 2, bytesWritten := 1 }
      input := .memory (.bytes [7])
      sink := { written := #[3], writes := 1, flushes := 1 } } ?_).1 2 [3, 0, 9, 9] rfl rfl rfl
    rfl
  · obtain ⟨x, hx, hrun⟩ := run_eq_of_consumed hcode _ hs (.upTo 9) 0 [3] {} hk
    obtain rfl := Except.ok.inj hx
    obtain ⟨z, d, hz, hd, hblind⟩ := (hrun 6 _ rfl).2 2
    exact ⟨z, d, hz, hd, congrArg (·.state.tape) hblind, congrArg (·.state.bytesRead) hblind⟩

end Execution

end Brainfuck
