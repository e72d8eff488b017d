import Brainfuck.Proofs.Machine.Trace

/-! Failing runs. A run fails at a read or a write that its streams refuse. The machine is then as
it was when that command was fetched, but for the step that counts it, and its counters know of the
commands before it only. A program that is rejected does not touch the machine at all. -/

namespace Brainfuck.Execution

/-- A run from `c` failed with `e` in the machine `d`: `m` instructions were completed, and the
`command` at `position`, fetched in the machine `b`, was refused by its streams. -/
structure FailedAt (code : Text) (t : JumpTable) (c : Config) (e : Error) (d : Config) (m : Nat)
    (b : Config) (position : Nat) (command : Command) : Prop where
  fetched : (Image.ofTable code t).advance m c = .running b
  command_at : code[position]? = some command.codePoint
  command_eq : command = .output ∨ command = .input
  refused : b.Refuses command e
  state_eq : d.state = { b.state with steps := c.state.steps + (m + 1) }
  position_eq : d.state.position = position
  bytesWritten_eq : d.state.bytesWritten =
    c.state.bytesWritten + ((Image.ofTable code t).uses .output m c).length
  bytesRead_eq : d.state.bytesRead =
    c.state.bytesRead + ((Image.ofTable code t).uses .input m c).countP (·.input.offered.isSome)
  emptyReads_eq : d.state.emptyReads =
    c.state.emptyReads + ((Image.ofTable code t).uses .input m c).countP (·.input.offered.isNone)

variable {code : Text} {t : JumpTable}

theorem failedAt_of_failed (ht : t.Holds code code.length) (hb : code.Balanced) {c d : Config}
    {size n : Nat} {e : Error} (h : c.Inside code size)
    (hd : (Image.ofTable code t).advance n c = .failed e d) :
    ∃ m b position command, FailedAt code t c e d m b position command := by
  obtain ⟨m, b, -, hm, hstep⟩ := Image.exists_last_step hd (by simp)
  have hin := Image.advance_inside ht hb h hm
  have htally := Image.tally_advance hm
  rcases Image.step_inside ht hb hin with ⟨hf, -⟩ | ⟨d', hf, -⟩ | ⟨command, e', d', hx, hf, hs, hr⟩
  · simp [hf] at hstep
  · simp [hf] at hstep
  · rw [hf, Progress.failed.injEq] at hstep
    obtain ⟨rfl, rfl⟩ := hstep
    refine ⟨m, b, b.state.position.toNat, command, hm, hx, ?_, hr, ?_, ?_, ?_, ?_, ?_⟩
    · cases hr <;> simp
    · rw [hs, Config.tick, htally.steps_eq, Int.add_assoc]
    · rw [hs, Int.toNat_of_nonneg hin.position_nonneg]
      rfl
    · rw [hs]
      exact htally.bytesWritten_eq
    · rw [hs]
      exact htally.bytesRead_eq
    · rw [hs]
      exact htally.emptyReads_eq

variable {s : State} {memory : Memory} {tapeSize : Int} {input : Input} {sink : Sink} {n : Nat}

theorem runOn_of_resolve (h : JumpTable.resolve code = .ok t) {jumps? : Option JumpTable}
    (hj : jumps? = none ∨ jumps? = some t) :
    runOn memory code jumps? s tapeSize input sink n =
      run ⟨Image.ofTable code t, Config.start s input sink⟩ n := by
  rcases hj with rfl | rfl
  · rw [runOn, start_of_resolve h]
  · rw [runOn, start_of_table]

theorem runOn_of_rejected {r : Rejection} (h : JumpTable.resolve code = .error r) :
    runOn memory code none s tapeSize input sink n =
      some ⟨some (.rejected r), { state := s, input, sink }⟩ := by
  have hs : start memory code none (some s) tapeSize input sink = .error (.rejected r) := by
    unfold start Image.ofText
    rw [h]
    rfl
  rw [runOn, hs]

/-- A run that fails stops at the command that failed, with nothing of it done but the count of its
step; a program that is rejected leaves the machine and its streams as they are. -/
theorem runOn_failure (memory : Memory) (code : Text) (s : State) (tapeSize : Int) (input : Input)
    (sink : Sink) :
    (∀ t, JumpTable.resolve code = .ok t → s.InRange → ∀ jumps?, jumps? = none ∨ jumps? = some t →
      ∀ n e d, runOn memory code jumps? s tapeSize input sink n = some ⟨some e, d⟩ →
        ∃ m b position command,
          FailedAt code t (Config.start s input sink) e d m b position command) ∧
    ∀ r, JumpTable.resolve code = .error r → ∀ n,
      runOn memory code none s tapeSize input sink n =
        some ⟨some (.rejected r), { state := s, input, sink }⟩ := by
  refine ⟨?_, fun r hr n => runOn_of_rejected hr⟩
  intro t ht hs jumps? hj n e d hd
  rw [runOn_of_resolve ht hj, run, Progress.outcome?_eq_failed] at hd
  exact failedAt_of_failed (JumpTable.holds_of_resolve ht) (JumpTable.balanced_of_resolve ht)
    (Config.inside_start code hs input sink) hd

/-- A loop whose second read finds the stream at fault, and a loop that is never closed. -/
theorem runOn_failure_second_read :
    (∃ m b position command, FailedAt (Text.ofString "+[,.]")
      ⟨#[none, some 4, none, none, none], #[none, none, none, none, some 1]⟩
      (Config.start { tape := #[0, 7], pointer := 1, steps := 5 }
        (.script [.data (.bytes [65]), .fault ⟨.internal, []⟩]) {})
      (.stream ⟨.internal, []⟩)
      { state := {
          tape := #[0, 65]
          pointer := 1
          position := 2
          steps := 11
          bytesRead := 1
          bytesWritten := 1 }
        input := .scripted [] 2 #[1, 1]
        sink := { written := #[65], writes := 1, flushes := 1 } } m b position command) ∧
    runOn (.upTo 9) (Text.ofString "+[") none { tape := #[3], position := 9 } 0 (.closed false) {}
        7 =
      some ⟨some (.rejected (.unclosedLoop (Text.ofString "+[") 1 1)),
        { state := { tape := #[3], position := 9 }, input := .closed false, sink := {} }⟩ :=
  ⟨(runOn_failure (.upTo 9) (Text.ofString "+[,.]") { tape := #[0, 7], pointer := 1, steps := 5 } 0
      (.script [.data (.bytes [65]), .fault ⟨.internal, []⟩]) {}).1 _ rfl ⟨by decide, by decide⟩
      none (.inl rfl) 10 _ _ (by decide),
    (runOn_failure (.upTo 9) (Text.ofString "+[") { tape := #[3], position := 9 } 0
      (.closed false) {}).2 _ rfl 7⟩

end Brainfuck.Execution
