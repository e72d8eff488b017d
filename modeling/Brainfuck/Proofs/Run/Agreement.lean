import Brainfuck.Proofs.Collector.Stream
import Brainfuck.Proofs.Machine.Run
import Brainfuck.Proofs.Machine.Simulation
import Brainfuck.Proofs.Settings.Valid
import Brainfuck.Run

/-! A program read from a stream runs as the same program given at once. If the stream is also the
program's input, the program starts to read where its reader stopped. A run that fails before it
starts touches neither its output nor an input of its own. -/

namespace Brainfuck

/-! ### Getting ready -/

/-- The run of the program that a stream delivers, ready to start, and the rest of the stream. -/
def prepareStream (memory : Memory) (source : Input) (input? : Option Input) (sink : Sink)
    (settings : Settings) : Except Error Execution × Input :=
  match settings.validate with
  | .error e => (.error e, source)
  | .ok settings =>
    match source.program settings.programMax settings.strict Collector.defaultChunk with
    | (.error e, rest) => (.error e, rest)
    | (.ok program, rest) =>
      (Execution.start memory program.text none none settings.tapeSize (input?.getD rest) sink,
        rest)

theorem runStream_eq (memory : Memory) (budget : Nat) (source : Input) (input? : Option Input)
    (sink : Sink) (settings : Settings) :
    runStream memory budget source input? sink settings =
      match prepareStream memory source input? sink settings with
      | (.error e, rest) =>
        some { result := .error e, source := rest, input := input?.getD rest, sink }
      | (.ok execution, rest) =>
        (execution.run budget).map fun o => {
          result := match o.error? with
            | some e => .error e
            | none => .ok o.final.state
          source := if input?.isSome then rest else o.final.input
          input := o.final.input
          sink := o.final.sink } := by
  rw [runStream, prepareStream]
  cases settings.validate with
  | error e => rfl
  | ok settings =>
    simp only
    cases source.program settings.programMax settings.strict Collector.defaultChunk with
    | mk result rest =>
      cases result with
      | error e => rfl
      | ok program =>
        simp only
        cases Execution.start memory program.text none none settings.tapeSize (input?.getD rest)
          sink <;> rfl

namespace Execution

def redirect (sink : Sink) (p : Execution) : Execution := ⟨p.image, p.config.redirect sink⟩

theorem run_redirect {sink : Sink} (hk : sink.NeverFails) {p : Execution}
    (hp : p.config.sink.NeverFails) (budget : Nat) :
    (p.redirect sink).run budget = (p.run budget).map (Outcome.map (Config.redirect sink)) := by
  rw [run, redirect, Image.advance_redirect p.image hk hp, Progress.outcome?_map, run]

end Execution

variable {memory : Memory} {s : Source} {input? : Option Input} {input : List UInt8}
  {settings : Settings}

/-- Program and input given at once: the first thing that is wrong is reported. -/
theorem prepareSource_bytes (memory : Memory) (s : Source) (input : List UInt8)
    (settings : Settings) :
    prepareSource memory s (.bytes input) settings =
      match settings.validate with
      | .error e => .error e
      | .ok settings =>
        match s.program settings.programMax settings.strict with
        | .error e => .error e
        | .ok program =>
          match JumpTable.resolve program.text with
          | .error r => .error (.rejected r)
          | .ok t => (State.new memory settings.tapeSize).map fun state => (program,
              ⟨Image.ofTable program.text t, Config.start state (.memory (.bytes input)) {}⟩) := by
  rw [prepareSource, load]
  cases hv : settings.validate with
  | error e => rfl
  | ok valid =>
    obtain ⟨rfl, -⟩ := Settings.validate_eq_ok_iff.mp hv
    simp only [bind, Except.bind]
    cases s.program valid.programMax valid.strict with
    | error e => rfl
    | ok program =>
      simp only
      cases JumpTable.resolve program.text with
      | error r => rfl
      | ok t =>
        simp only [Except.mapError, pure, Except.pure, Source.inputBytes, Execution.start]
        cases State.new memory valid.tapeSize <;> rfl

theorem isWide_defaultChunk : Offset.isWide ((4096 : Nat) : Int) = false := by decide

theorem map_commands_program (h₀ : 0 < settings.programMax) (s : Source) :
    ((Input.memory s).program settings.programMax settings.strict
        Collector.defaultChunk).1.map Program.commands =
      (s.program settings.programMax settings.strict).map Program.commands := by
  have h := Input.map_commands_program_memory (show 0 < settings.programMax.toNat by omega)
    (by decide) isWide_defaultChunk settings.strict s
  rwa [Int.toNat_of_nonneg h₀.le] at h

/-- A stream is prepared as its source is, if the program is to read `input`. -/
theorem prepareStream_memory (memory : Memory) (sink : Sink)
    (h : ∀ program rest, (Input.memory s).program settings.programMax settings.strict
      Collector.defaultChunk = (.ok program, rest) → input?.getD rest = .memory (.bytes input)) :
    (prepareStream memory (.memory s) input? sink settings).1 =
      (prepareSource memory s (.bytes input) settings).map fun p => p.2.redirect sink := by
  rw [prepareStream, prepareSource_bytes]
  cases hv : settings.validate with
  | error e => rfl
  | ok valid =>
    obtain ⟨rfl, hvalid⟩ := Settings.validate_eq_ok_iff.mp hv
    have hcommands := map_commands_program hvalid.programMax_pos s
    simp only
    cases hstream : (Input.memory s).program valid.programMax valid.strict
      Collector.defaultChunk with
    | mk result rest =>
      rw [hstream] at hcommands
      cases hsource : s.program valid.programMax valid.strict with
      | error e =>
        rw [hsource] at hcommands
        cases result with
        | error e' => exact congrArg Except.error (Except.error.inj hcommands)
        | ok program => cases hcommands
      | ok whole =>
        rw [hsource] at hcommands
        cases result with
        | error e => cases hcommands
        | ok program =>
          have htext : program.text = whole.text :=
            congrArg Text.ofCommands (Except.ok.inj hcommands)
          simp only [htext, h program rest hstream, Execution.start_none_eq]
          cases JumpTable.resolve whole.text with
          | error r => rfl
          | ok t =>
            simp only
            cases State.new memory valid.tapeSize with
            | error e => rfl
            | ok state =>
              exact congrArg Except.ok (congrArg _ (Config.redirect_start state _ sink).symm)

/-! ### Running -/

/-- A source and a stream have come to the same: both are still running, or both have failed for
one reason, or both are in one state at their end and the sink has received the output. -/
inductive Agrees (sink : Sink) : Option (Except Error Report) → Option StreamReport → Prop
  | running : Agrees sink none none
  | failed {e : Error} {r : StreamReport} (hresult : r.result = .error e) :
    Agrees sink (some (.error e)) (some r)
  | finished {report : Report} {r : StreamReport} (hresult : r.result = .ok report.state)
    (hsink : r.sink = sink.after report.output.toList) : Agrees sink (some (.ok report)) (some r)

theorem sink_prepareSource {p : Program × Execution}
    (h : prepareSource memory s (.bytes input) settings = .ok p) : p.2.config.sink = {} := by
  rw [prepareSource_bytes] at h
  cases hv : settings.validate with
  | error e => simp [hv] at h
  | ok valid =>
    cases hp : s.program valid.programMax valid.strict with
    | error e => simp [hv, hp] at h
    | ok program =>
      cases ht : JumpTable.resolve program.text with
      | error r => simp [hv, hp, ht] at h
      | ok t =>
        cases hn : State.new memory valid.tapeSize with
        | error e => simp [hv, hp, ht, hn, Except.map] at h
        | ok state =>
          simp only [hv, hp, ht, hn, Except.map] at h
          obtain rfl := Except.ok.inj h
          rfl

/-- A stream runs as its source does, if the program is to read `input`. -/
theorem agrees_runStream {sink : Sink} (hk : sink.NeverFails)
    (h : ∀ program rest, (Input.memory s).program settings.programMax settings.strict
      Collector.defaultChunk = (.ok program, rest) → input?.getD rest = .memory (.bytes input))
    (budget : Nat) :
    Agrees sink (runSource memory budget s (.bytes input) settings)
      (runStream memory budget (.memory s) input? sink settings) := by
  have hprepare := prepareStream_memory memory sink h
  rw [runSource, runStream_eq]
  cases hs : prepareStream memory (.memory s) input? sink settings with
  | mk result rest =>
    rw [hs] at hprepare
    cases hp : prepareSource memory s (.bytes input) settings with
    | error e =>
      rw [hp] at hprepare
      obtain rfl : result = .error e := hprepare
      exact .failed rfl
    | ok p =>
      rw [hp] at hprepare
      obtain rfl : result = .ok (p.2.redirect sink) := hprepare
      have hnew : p.2.config.sink.NeverFails := by
        rw [sink_prepareSource hp]
        exact Sink.neverFails_default
      simp only [Execution.run_redirect hk hnew]
      cases p.2.run budget with
      | none => exact .running
      | some o =>
        obtain ⟨error?, final⟩ := o
        cases error? with
        | none => exact .finished rfl rfl
        | some e => exact .failed rfl

/-! ### The stream as input -/

/-- Of the bytes `data`, the first `n` are read for the program; the rest is its input. -/
structure ReadsProgram (data : List UInt8) (settings : Settings) (n : Nat) : Prop where
  of_lenient : settings.strict = false →
    (Source.bytes data).ReadsUntil 4096 settings.programMax.toNat n
  of_strict : settings.strict = true → n = data.length
  rest_eq : ∀ program rest, (Input.memory (.bytes data)).program settings.programMax
    settings.strict Collector.defaultChunk = (.ok program, rest) →
      rest = .memory (.bytes (data.drop n))

theorem exists_readsProgram (data : List UInt8) (settings : Settings) :
    ∃ n, ReadsProgram data settings n := by
  obtain ⟨programMax, tapeSize, strict⟩ := settings
  rcases lt_or_ge 0 programMax with hpos | hle
  · obtain ⟨capacity, rfl⟩ := Int.eq_ofNat_of_zero_le hpos.le
    have h₀ : 0 < capacity := Int.natCast_pos.mp hpos
    cases strict with
    | false =>
      obtain ⟨n, hn, h⟩ := Input.program_memory_lenient h₀ (by decide) isWide_defaultChunk
        (.bytes data)
      refine ⟨n, fun _ => hn, nofun, fun program rest hprogram => ?_⟩
      exact (Prod.mk.inj (hprogram.symm.trans h)).2
    | true =>
      refine ⟨data.length, nofun, fun _ => rfl, fun program rest hprogram => ?_⟩
      rcases Nat.lt_or_ge capacity (Source.bytes data).elementCommands.length with hlt | hle
      · obtain ⟨k, -, h⟩ := Input.program_memory_strict_of_lt h₀ (by decide) isWide_defaultChunk hlt
        cases (Prod.mk.inj (hprogram.symm.trans h)).1
      · have h := Input.program_memory_strict_of_le h₀ (by decide) isWide_defaultChunk hle
        exact (Prod.mk.inj (hprogram.symm.trans h)).2
  · have hnone := (Input.memory (.bytes data)).program_of_not_pos (Int.not_lt.mpr hle) strict
      Collector.defaultChunk
    cases strict with
    | false =>
      refine ⟨0, fun _ => ?_, nofun, fun program rest h => absurd h (hnone program rest)⟩
      rw [show programMax.toNat = 0 from Int.toNat_of_nonpos hle]
      exact Source.readsUntil_zero _ _
    | true =>
      exact ⟨data.length, nofun, fun _ => rfl, fun program rest h => absurd h (hnone program rest)⟩

/-! ### Runs that never start -/

/-- Nothing came of a run: it failed, its sink received nothing, and an input of its own was not
read. -/
structure StreamReport.Unstarted (r : StreamReport) (input? : Option Input) (sink : Sink) :
    Prop where
  result_eq : ∃ e, r.result = .error e
  sink_eq : r.sink = sink
  input_eq : ∀ i, input? = some i → r.input = i

/-- What has a result without a step has the same result however many steps are allowed. -/
theorem unstarted_of_runStream {source : Input} {sink : Sink} {r : StreamReport}
    (h : runStream memory 0 source input? sink settings = some r) :
    r.Unstarted input? sink ∧
      ∀ budget, runStream memory budget source input? sink settings = some r := by
  rw [runStream_eq] at h
  cases hp : prepareStream memory source input? sink settings with
  | mk result rest =>
    rw [hp] at h
    cases result with
    | ok execution => simp [Execution.run, Progress.outcome?] at h
    | error e =>
      obtain rfl := Option.some.inj h
      refine ⟨⟨⟨e, rfl⟩, rfl, fun i hi => by rw [hi]; rfl⟩, fun budget => ?_⟩
      rw [runStream_eq, hp]

/-- A program read from a stream runs as the same bytes do when they are given at once, on an
input of its own and on what its reader left of the stream. A run that ends without a step has
failed and touched nothing. -/
theorem runStream_agrees (memory : Memory) (data : List UInt8) (settings : Settings) :
    (∀ sink : Sink, sink.NeverFails → ∀ input budget,
      Agrees sink (runSource memory budget (.bytes data) (.bytes input) settings)
        (runStream memory budget (.memory (.bytes data)) (some (.memory (.bytes input))) sink
          settings)) ∧
    (∃ n, ReadsProgram data settings n ∧ ∀ sink : Sink, sink.NeverFails → ∀ budget,
      Agrees sink (runSource memory budget (.bytes data) (.bytes (data.drop n)) settings)
        (runStream memory budget (.memory (.bytes data)) none sink settings)) ∧
    ∀ input? sink r, runStream memory 0 (.memory (.bytes data)) input? sink settings = some r →
      r.Unstarted input? sink ∧
        ∀ budget, runStream memory budget (.memory (.bytes data)) input? sink settings =
          some r := by
  refine ⟨fun sink hk input budget => ?_, ?_, fun input? sink r => unstarted_of_runStream⟩
  · exact agrees_runStream hk (fun _ _ _ => rfl) budget
  · obtain ⟨n, hn⟩ := exists_readsProgram data settings
    exact ⟨n, hn, fun sink hk => agrees_runStream hk hn.rest_eq⟩

/-- A program that copies a byte of its own input, and one whose loop is never closed. -/
theorem runStream_agrees_copy_and_unclosed :
    (∃ r, runStream (.upTo 9) 3 (.memory (.bytes [0x2C, 0x2E])) (some (.memory (.bytes [0x41])))
        {} { tapeSize := 1 } = some r ∧
      r.result = .ok ⟨#[0x41], 0, 2, 2, 1, 1, 0⟩ ∧ r.sink.written = #[0x41]) ∧
    ∃ r, runStream (.upTo 9) 3 (.memory (.bytes [0x5B])) (some (.memory (.bytes [0x41]))) {}
        { tapeSize := 1 } = some r ∧ r.Unstarted (some (.memory (.bytes [0x41]))) {} := by
  constructor
  · have h := (runStream_agrees (.upTo 9) [0x2C, 0x2E] { tapeSize := 1 }).1 {}
      Sink.neverFails_default [0x41] 3
    have hsource : runSource (.upTo 9) 3 (.bytes [0x2C, 0x2E]) (.bytes [0x41]) { tapeSize := 1 } =
        some (.ok ⟨#[0x41], ⟨#[0x41], 0, 2, 2, 1, 1, 0⟩, ⟨[.input, .output], false, 65536⟩⟩) := by
      decide +kernel
    rw [hsource] at h
    generalize runStream _ _ _ _ _ _ = report at h ⊢
    cases h with
    | finished hresult hsink => exact ⟨_, rfl, hresult, by rw [hsink]; rfl⟩
  · obtain ⟨hagrees, -, hunstarted⟩ := runStream_agrees (.upTo 9) [0x5B] { tapeSize := 1 }
    have h := hagrees {} Sink.neverFails_default [0x41] 0
    have hsource : runSource (.upTo 9) 0 (.bytes [0x5B]) (.bytes [0x41]) { tapeSize := 1 } =
        some (.error (.rejected (.unclosedLoop (Text.ofString "[") 0 1))) := by decide +kernel
    rw [hsource] at h
    cases hr : runStream (.upTo 9) 0 (.memory (.bytes [0x5B])) (some (.memory (.bytes [0x41]))) {}
      { tapeSize := 1 } with
    | none =>
      rw [hr] at h
      cases h
    | some r =>
      obtain ⟨hfailed, hbudget⟩ := hunstarted _ _ r hr
      exact ⟨r, hbudget 3, hfailed⟩

end Brainfuck
