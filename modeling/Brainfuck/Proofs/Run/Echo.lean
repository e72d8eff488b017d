import Brainfuck.Proofs.Block.Refinement
import Brainfuck.Proofs.Collector.Filter
import Brainfuck.Proofs.Machine.Extent
import Brainfuck.Proofs.Run.Agreement

/-! The program that copies its input to its output up to the first zero byte. It reads a byte, and
as long as the byte is not zero it writes it and reads the next one; the end of input is read as
zero. So the loop ends on every input, either at a zero byte or after one read that found nothing,
and the one cell that it used is zero again. -/

namespace Brainfuck

namespace Store

variable {size : Nat}

/-- The bytes that are written of the input to come: those before the first zero. -/
def echoed (s : Store size) : List UInt8 := s.unread.takeWhile (· ≠ 0)

/-- The store after the input was copied up to its first zero. -/
def echo (s : Store size) : Store size :=
  { s.put 0 with
    unread := s.unread.drop (s.echoed.length + 1)
    output := s.output ++ s.echoed
    bytesRead := s.bytesRead + min (s.echoed.length + 1) s.unread.length
    bytesWritten := s.bytesWritten + s.echoed.length
    emptyReads := s.emptyReads + if s.echoed.length < s.unread.length then 0 else 1 }

variable {s : Store size} {b : UInt8} {unread : List UInt8}

theorem cell_echo (s : Store size) : s.echo.cell = 0 := by
  simp [echo, put, cell]

theorem echoed_of_nil (h : s.unread = []) : s.echoed = [] := by
  simp [echoed, h]

theorem echoed_of_zero (h : s.unread = 0 :: unread) : s.echoed = [] := by
  simp [echoed, h]

theorem take_of_nil (h : s.unread = []) : s.take = s.echo := by
  simp [take, echo, echoed_of_nil h, put, h]

theorem take_of_zero (h : s.unread = 0 :: unread) : s.take = s.echo := by
  simp [take, echo, echoed_of_zero h, put, h]

theorem cell_take_of_cons (h : s.unread = b :: unread) : s.take.cell = b := by
  simp [take, put, cell, h]

theorem unread_act_take (h : s.unread = b :: unread) :
    (s.take.act (some .output)).unread = unread := by
  simp [act, take, h]

theorem echoed_of_cons (h : s.unread = b :: unread) (hb : b ≠ 0) :
    s.echoed = b :: (s.take.act (some .output)).echoed := by
  simp [echoed, unread_act_take h, h, hb]

theorem echo_of_cons (h : s.unread = b :: unread) (hb : b ≠ 0) :
    (s.take.act (some .output)).echo = s.echo := by
  simp only [echo, echoed_of_cons h hb, unread_act_take h, h]
  simp [act, take, put, cell, h]
  omega

theorem stopped_echo (s : Store size) :
    s.unread[s.echoed.length]? = some 0 ∧ s.echo.bytesRead = s.bytesRead + (s.echoed.length + 1) ∧
        s.echo.emptyReads = s.emptyReads ∨
      s.echoed.length = s.unread.length ∧ s.echo.bytesRead = s.bytesRead + s.echoed.length ∧
        s.echo.emptyReads = s.emptyReads + 1 := by
  have hsplit : s.echoed ++ s.unread.dropWhile (· ≠ 0) = s.unread :=
    List.takeWhile_append_dropWhile
  have hlength := congrArg List.length hsplit
  rw [List.length_append] at hlength
  cases hrest : s.unread.dropWhile (· ≠ 0) with
  | nil =>
    rw [hrest, List.length_nil] at hlength
    refine .inr ⟨by omega, ?_, ?_⟩
    · simp only [echo]
      omega
    · rw [echo, if_neg (by omega)]
  | cons b rest =>
    have hb : b = 0 := by
      have hnot := List.head?_dropWhile_not (fun b : UInt8 => decide (b ≠ 0)) s.unread
      rw [hrest] at hnot
      simpa using hnot
    rw [hrest, List.length_cons] at hlength
    rw [hrest, hb] at hsplit
    refine .inl ⟨?_, ?_, ?_⟩
    · nth_rewrite 1 [← hsplit]
      simp
    · simp only [echo]
      omega
    · rw [echo, if_pos (by omega)]
      rfl

end Store

namespace Block

variable {size : Nat}

def echoBody : Block :=
  single ⟨Command.output.codePoint, by decide⟩ (single ⟨Command.input.codePoint, by decide⟩ done)

/-- Read a byte, and copy it and the bytes after it as long as they are not zero. -/
def echo : Block := single ⟨Command.input.codePoint, by decide⟩ (loop echoBody done)

theorem text_echo : echo.text = Text.ofString ",[.,]" := by decide

theorem runs_echoBody (s : Store size) : echoBody.Runs s 2 (s.act (some .output)).take :=
  .single (.single .done)

/-- Once a byte was read the loop copies it and what comes after it. -/
theorem runs_echo_loop (s : Store size) :
    (loop echoBody done).Runs s.take (3 * s.echoed.length + 1) s.echo := by
  -- on the input to come: each round of the loop uses up one byte of it
  generalize hu : s.unread = unread
  induction unread generalizing s with
  | nil =>
    rw [Store.take_of_nil hu, Store.echoed_of_nil hu]
    exact .loopSkip s.cell_echo .done
  | cons b unread ih =>
    by_cases hb : b = 0
    · subst hb
      rw [Store.take_of_zero hu, Store.echoed_of_zero hu]
      exact .loopSkip s.cell_echo .done
    · have hcell : s.take.cell ≠ 0 := by rwa [Store.cell_take_of_cons hu]
      have hagain := ih (s.take.act (some .output)) (Store.unread_act_take hu)
      rw [Store.echo_of_cons hu hb] at hagain
      rw [Store.echoed_of_cons hu hb, List.length_cons,
        show ∀ n, 3 * (n + 1) + 1 = 2 + 1 + (3 * n + 1) by omega]
      exact .loopRound hcell (runs_echoBody s.take) hagain

theorem runs_echo (s : Store size) : echo.Runs s (3 * s.echoed.length + 2) s.echo :=
  .single (runs_echo_loop s)

/-- A machine that starts a block which has a run ends with what the run leaves. -/
theorem Runs.advance_start {b : Block} {t : JumpTable} (ht : t.Holds b.text b.text.length)
    {s : State} (hs : s.InRange) {bytes : List UInt8} {sink : Sink} (hk : sink.NeverFails) {n : Nat}
    {s' : Store s.tape.size} (h : b.Runs (Store.ofState s hs bytes) n s') :
    (Image.ofTable b.text t).advance (n + 1) (Config.start s (.memory (.bytes bytes)) sink) =
      .finished (s'.config s sink b.length n) := by
  have hadvance := h.advance hk ht b.at_text s 0
  rw [Store.config_ofState, Nat.zero_add, Nat.zero_add] at hadvance
  rw [Image.advance_trans hadvance, Image.advance_one]
  exact Image.step_of_length_le (by simp [Store.config, length_text])

end Block

/-! ### Blocks given as a source -/

def State.zeros (size : Nat) : State := { tape := Array.replicate size 0 }

theorem State.inRange_zeros {size : Nat} (h : 0 < size) : (zeros size).InRange :=
  ⟨le_rfl, by simpa [zeros] using h⟩

namespace Store

variable {size k : Nat}

/-- What is reported of a program that came to its end with this store, after some steps from a
machine with `k` cells. -/
def report (k : Nat) (s : Store size) (program : Program) (steps : Nat) : Report where
  output := s.output.toArray
  state := (s.config (State.zeros k) {} program.length steps).state
  program := program

theorem steps_report (s : Store size) (program : Program) (n : Nat) :
    (s.report k program n).state.steps = n := Int.zero_add _

structure Fresh (s : Store size) : Prop where
  output_eq : s.output = []
  bytesRead_eq : s.bytesRead = 0
  bytesWritten_eq : s.bytesWritten = 0
  emptyReads_eq : s.emptyReads = 0

theorem fresh_ofState (s : State) (h : s.InRange) (bytes : List UInt8) :
    (ofState s h bytes).Fresh := ⟨rfl, rfl, rfl, rfl⟩

end Store

section Source

variable {memory : Memory} {source : Source} {settings : Settings} {b : Block} {bytes : List UInt8}

/-- A source with the commands of a block, and room for them, is made ready as the block. -/
theorem prepareSource_of_block (memory : Memory) (hv : settings.Valid)
    (hs : source.codeElements = b.text) (hroom : b.length ≤ settings.programMax)
    (bytes : List UInt8) :
    ∃ program t, program.length = b.length ∧ t.Holds b.text b.text.length ∧
      prepareSource memory source (.bytes bytes) settings =
        (State.new memory settings.tapeSize).map fun state =>
          (program, ⟨Image.ofTable b.text t, Config.start state (.memory (.bytes bytes)) {}⟩) := by
  have hlength : source.commands.length = b.length := by
    rw [Source.length_commands, hs, Block.length_text]
  have hprogram := Source.program_eq_ok hv.programMax_pos (s := source) (by rwa [hlength])
    settings.strict
  have htext : Text.ofCommands source.commands = b.text := source.ofCommands_commands.trans hs
  obtain ⟨t, ht⟩ := JumpTable.exists_resolve_iff.mpr b.balanced_text
  refine ⟨⟨source.commands, false, settings.programMax.toNat⟩, t, hlength,
    JumpTable.holds_of_resolve ht, ?_⟩
  rw [prepareSource_bytes, hv.validate_eq]
  simp only [hprogram, Program.text, htext, ht]

/-- On a machine that can be made it ends as the block does, given more steps than this takes. -/
theorem runSource_of_block_runs (hv : settings.Valid)
    (hnew : State.new memory settings.tapeSize = .ok (.zeros settings.tapeSize.toNat))
    (hs : source.codeElements = b.text) (hroom : b.length ≤ settings.programMax)
    (hr : (State.zeros settings.tapeSize.toNat).InRange) {n : Nat}
    {s' : Store (State.zeros settings.tapeSize.toNat).tape.size}
    (h : b.Runs (Store.ofState _ hr bytes) n s') :
    ∃ program, ∀ budget, n < budget → runSource memory budget source (.bytes bytes) settings =
      some (.ok (s'.report settings.tapeSize.toNat program n)) := by
  obtain ⟨program, t, hlength, ht, hprepare⟩ := prepareSource_of_block memory hv hs hroom bytes
  rw [hnew] at hprepare
  refine ⟨program, fun budget hbudget => ?_⟩
  have hend := Progress.outcome?_eq_finished.mpr (h.advance_start ht hr Sink.neverFails_default)
  have hlater := Image.outcome?_advance_add hend (budget - (n + 1))
  rw [Nat.add_sub_cancel' hbudget] at hlater
  rw [runSource, hprepare]
  simp [Except.map, Execution.run, hlater, Store.report, hlength, Store.config, Sink.after]

/-- Where no machine can be made it does not start. -/
theorem runSource_of_new_error (hv : settings.Valid) {e : Error}
    (hnew : State.new memory settings.tapeSize = .error e) (hs : source.codeElements = b.text)
    (hroom : b.length ≤ settings.programMax) (bytes : List UInt8) (budget : Nat) :
    runSource memory budget source (.bytes bytes) settings = some (.error e) := by
  obtain ⟨program, t, -, -, hprepare⟩ := prepareSource_of_block memory hv hs hroom bytes
  rw [runSource, hprepare, hnew]
  rfl

end Source

/-! ### The program that copies -/

/-- What is left of a run that copied `bytes` up to the first zero on a tape of `size` cells. -/
structure Report.Echoes (r : Report) (bytes : List UInt8) (size : Nat) : Prop where
  output_eq : r.output.toList = bytes.takeWhile (· ≠ 0)
  bytesWritten_eq : r.state.bytesWritten = r.output.size
  steps_eq : r.state.steps = 2 + 3 * r.output.size
  /-- The last read has found the zero, or else the end of input. -/
  stopped : bytes[r.output.size]? = some 0 ∧ r.state.bytesRead = r.output.size + 1 ∧
      r.state.emptyReads = 0 ∨
    r.output.size = bytes.length ∧ r.state.bytesRead = r.output.size ∧ r.state.emptyReads = 1
  cell_eq : r.state.cell = .ok 0
  tape_eq : r.state.tape = Array.replicate size 0

theorem Report.echoes_echo {size k : Nat} {s : Store size} (hf : s.Fresh)
    (htape : s.tape.toArray = Array.replicate k 0) (program : Program) :
    (s.echo.report k program (3 * s.echoed.length + 2)).Echoes s.unread k := by
  have hsize : (s.echo.report k program (3 * s.echoed.length + 2)).output.size =
      s.echoed.length := by
    simp [Store.report, Store.echo, hf.output_eq]
  constructor
  · simp [Store.report, Store.echo, Store.echoed, hf.output_eq]
  · rw [hsize]
    simp [Store.report, Store.config, Store.echo, State.zeros, hf.bytesWritten_eq]
  · rw [hsize, Store.steps_report]
    omega
  · rw [hsize]
    simp only [Store.report, Store.config, State.zeros, Int.zero_add]
    rcases s.stopped_echo with ⟨hzero, hread, hempty⟩ | ⟨hend, hread, hempty⟩
    · rw [hread, hempty, hf.bytesRead_eq, hf.emptyReads_eq]
      exact .inl ⟨hzero, by omega, rfl⟩
    · rw [hread, hempty, hf.bytesRead_eq, hf.emptyReads_eq]
      exact .inr ⟨hend, by omega, rfl⟩
  · rw [Store.report, Store.cell_config, Store.cell_echo]
  · simp [Store.report, Store.config, Store.echo, Store.put, htape]

/-- The program copies every input up to its first zero byte, on every machine that can be made;
where none can be made that is what its run comes to. -/
theorem runSource_echo (memory : Memory) (source : Source)
    (hs : source.codeElements = Text.ofString ",[.,]") (settings : Settings)
    (hroom : 5 ≤ settings.programMax) (hsize : 1 ≤ settings.tapeSize) (bytes : List UInt8) :
    (∀ state, State.new memory settings.tapeSize = .ok state → ∃ report : Report,
      report.Echoes bytes settings.tapeSize.toNat ∧ ∀ budget : Nat, report.state.steps < budget →
        runSource memory budget source (.bytes bytes) settings = some (.ok report)) ∧
    (∀ e, State.new memory settings.tapeSize = .error e →
      (e = .tapeTooLarge ∨ e = .outOfMemory) ∧
      ∀ budget, runSource memory budget source (.bytes bytes) settings = some (.error e)) ∧
    (Offset.limit ≤ settings.tapeSize →
      State.new memory settings.tapeSize = .error .tapeTooLarge) := by
  have hv : settings.Valid := ⟨by omega, by omega⟩
  rw [← Block.text_echo] at hs
  refine ⟨fun state hnew => ?_, fun e hnew => ?_, State.new_of_limit_le⟩
  · obtain ⟨-, -, rfl⟩ := State.eq_of_new hnew
    have hr : (State.zeros settings.tapeSize.toNat).InRange := State.inRange_zeros (by omega)
    obtain ⟨program, hrun⟩ := runSource_of_block_runs hv hnew hs hroom hr
      (Block.runs_echo (Store.ofState _ hr bytes))
    refine ⟨_, Report.echoes_echo (Store.fresh_ofState _ hr bytes) rfl program, fun budget h => ?_⟩
    rw [Store.steps_report] at h
    exact hrun budget (Int.ofNat_lt.mp h)
  · exact ⟨State.eq_of_new_error hv.tapeSize_pos hnew,
      runSource_of_new_error hv hnew hs hroom bytes⟩

/-- A copy that ends at a zero and one that ends with its input, with no room to spare and with a
comment inside the loop. -/
theorem runSource_echo_zero_and_end :
    (∃ report, runSource (.upTo 9) 9 (.text (Text.ofString "é,[.x,]")) (.bytes [3, 7, 0, 9])
        { programMax := 5, tapeSize := 2, strict := true } = some (.ok report) ∧
      report.Echoes [3, 7, 0, 9] 2) ∧
    ∃ report, runSource (.upTo 9) 9 (.text (Text.ofString "é,[.x,]")) (.bytes [3, 7])
        { programMax := 5, tapeSize := 2, strict := true } = some (.ok report) ∧
      report.Echoes [3, 7] 2 := by
  have hrun : ∀ bytes : List UInt8, (bytes.takeWhile (· ≠ 0)).length = 2 →
      ∃ report, runSource (.upTo 9) 9 (.text (Text.ofString "é,[.x,]")) (.bytes bytes)
        { programMax := 5, tapeSize := 2, strict := true } = some (.ok report) ∧
      report.Echoes bytes 2 := by
    intro bytes hlength
    obtain ⟨report, hechoes, hend⟩ := (runSource_echo (.upTo 9)
      (.text (Text.ofString "é,[.x,]")) (by decide)
      { programMax := 5, tapeSize := 2, strict := true } (by decide) (by decide) bytes).1 _ rfl
    have hsize : report.output.size = 2 := by
      rw [← Array.length_toList, hechoes.output_eq, hlength]
    exact ⟨report, hend 9 (by rw [hechoes.steps_eq, hsize]; decide), hechoes⟩
  exact ⟨hrun _ rfl, hrun _ rfl⟩

/-- With more cells than can be addressed nothing is copied at all, with any amount of memory. -/
theorem runSource_echo_not_at_limit :
    ¬ ∃ budget report, runSource ⟨fun _ => true⟩ budget (.text (Text.ofString ",[.,]"))
        (.bytes [0x41]) { tapeSize := Offset.limit } = some (.ok report) ∧
      report.Echoes [0x41] Offset.limit.toNat := by
  rintro ⟨budget, report, hrun, -⟩
  rw [runSource_of_new_error (b := Block.echo) ⟨by decide, by decide⟩
    (State.new_of_limit_le le_rfl) (by decide) (by decide)] at hrun
  cases hrun

end Brainfuck
