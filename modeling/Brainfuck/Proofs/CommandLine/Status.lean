import Brainfuck.Proofs.CommandLine.Preparation
import Brainfuck.Proofs.Machine.Streams

/-! What the end of a call means. It exits with status 2 if the command line is refused and with
status 0 after the help text; it returns 1 if the program is rejected or nobody reads the output any
more, and 0 if the program came to its end. Every other end is an error that nobody handled. -/

namespace Brainfuck.CommandLine

/-- The end of a call and what it tells about the streams. -/
structure Classified (arguments : List Text) (s : Surroundings) : Prop where
  /-- A call exits with status 2 if its command line is refused. -/
  refused_iff : ∀ budget, (∃ r, run budget arguments s = some r ∧ r.ending = .exited 2) ↔
    ∃ e, plan arguments s.environment = .error (.usage e)
  /-- A refused command line touches neither stream. -/
  refused : ∀ budget r, run budget arguments s = some r → r.ending = .exited 2 →
    r.stdin = s.stdin ∧ r.stdout = s.stdout
  /-- A rejected program leaves its message and no output, and standard input as it was if the
  program did not come from there. -/
  rejected : ∀ i settings e, plan arguments s.environment = .ok (i, settings) →
    loading i.program settings s.stdin = .error (.rejected e) → ∀ budget, ∃ r log,
      run budget arguments s = some r ∧ r.ending = .returned 1 ∧
        r.stderr = log ++ (e.message ++ [Text.newline]) ∧ r.stdout = s.stdout ∧
        (i.program.isSome → r.stdin = s.stdin)
  /-- A call returns 0 if its program came to its end. -/
  finished_iff : ∀ budget,
    (∃ r, run budget arguments s = some r ∧ r.ending = .returned 0) ↔
    ∃ session o, prepare arguments s = .ok session ∧ session.execution.run budget = some o ∧
      o.error? = none
  /-- A pipe that breaks in the run is that of standard output, which has all it accepted. If
  standard output can be sent elsewhere the call returns 1. -/
  broken : ∀ session budget f final, prepare arguments s = .ok session →
    session.execution.run budget = some ⟨some (.stream f), final⟩ → f.kind = .brokenPipe →
    (∃ r, run budget arguments s = some r ∧ (s.redirection = none → r.ending = .returned 1) ∧
      (∀ g, s.redirection = some g → r.ending = .failed (.stream g)) ∧
      r.stdout.written.toList = s.stdout.written.toList ++
        session.execution.image.accepted budget session.execution.config) ∧
    ∃ m c, m < budget ∧
      session.execution.image.advance m session.execution.config = .running c ∧
      session.execution.image.instruction c = some .output ∧ c.Refuses .output (.stream f)
  returned_cases : ∀ budget r n, run budget arguments s = some r → r.ending = .returned n →
    n = 0 ∨ n = 1
  exited_cases : ∀ budget r n, run budget arguments s = some r → r.ending = .exited n →
    n = 0 ∧ plan arguments s.environment = .error .help ∨ n = 2
  /-- A read that fails on a device, a pipe or a closed stream does not end the run. -/
  missed : ∀ session n c f rest, prepare arguments s = .ok session →
    session.execution.image.advance n session.execution.config = .running c →
    session.execution.image.instruction c = some .input →
    c.input.read 1 = (.fault f, rest) →
    f.kind = .device ∨ f.kind = .brokenPipe ∨ f.kind = .refused →
    ∃ d, session.execution.image.step c = .running d

variable {arguments : List Text} {s : Surroundings} {session : Session} {budget : Nat} {r : Result}

/-- The ways in which a call can end. -/
inductive EndsWith (arguments : List Text) (s : Surroundings) (budget : Nat) (r : Result) :
    Ending → Prop where
  | finished {session : Session} {o : Outcome} (hp : prepare arguments s = .ok session)
    (ho : session.execution.run budget = some o) (hnone : o.error? = none) :
    EndsWith arguments s budget r (.returned 0)
  | stopped : EndsWith arguments s budget r (.returned 1)
  | helped (h : plan arguments s.environment = .error .help) :
    EndsWith arguments s budget r (.exited 0)
  | refused {e : UsageError} (h : plan arguments s.environment = .error (.usage e))
    (hstdin : r.stdin = s.stdin) (hstdout : r.stdout = s.stdout) :
    EndsWith arguments s budget r (.exited 2)
  | failed (e : Error) : EndsWith arguments s budget r (.failed e)

/-! ### Calls that end before the run -/

theorem endsWith_abandon (e : Error) (stdin : Input) (stdout : Sink) (log : Text) :
    EndsWith arguments s budget (abandon e stdin stdout log)
      (abandon e stdin stdout log).ending := by
  cases e with
  | rejected r => exact .stopped
  | _ => exact .failed _

theorem endsWith_printHelp (h : plan arguments s.environment = .error .help) :
    EndsWith arguments s budget (printHelp s) (printHelp s).ending := by
  rw [printHelp]
  cases s.stdout.write Manual.help.utf8 with
  | mk f? sink =>
    cases f? with
    | none => exact .helped h
    | some f => exact .failed _

theorem endsWith_of_prepare (hp : prepare arguments s = .error r) :
    EndsWith arguments s budget r r.ending := by
  have hprepared := prepared arguments s
  rw [hp] at hprepared
  cases hprepared with
  | help h => exact endsWith_printHelp h
  | refused h => exact .refused h rfl rfl
  | failed h => exact endsWith_abandon ..
  | unloaded events h hload => exact endsWith_abandon ..
  | unmade events h hload hnew => exact endsWith_abandon ..

theorem run_of_usage {e : UsageError} (h : plan arguments s.environment = .error (.usage e))
    (budget : Nat) : run budget arguments s = some (refuse s e) := by
  rw [run, prepare, planned, h]

theorem run_of_rejected {i : Invocation} {settings : Settings} {e : Rejection}
    (hplan : plan arguments s.environment = .ok (i, settings))
    (hload : loading i.program settings s.stdin = .error (.rejected e)) (budget : Nat) :
    ∃ r log, run budget arguments s = some r ∧ r.ending = .returned 1 ∧
      r.stderr = log ++ (e.message ++ [Text.newline]) ∧ r.stdout = s.stdout ∧
      (i.program.isSome → r.stdin = s.stdin) := by
  have hprepared := prepared arguments s
  rw [run]
  generalize prepare arguments s = result at hprepared ⊢
  cases hprepared with
  | help h => simp [hplan] at h
  | refused h => simp [hplan] at h
  | failed h => simp [hplan] at h
  | unloaded events h hload' =>
    obtain ⟨rfl, rfl⟩ := Prod.mk.inj (Except.ok.inj (hplan.symm.trans h))
    obtain rfl := Except.error.inj (hload.symm.trans hload')
    refine ⟨_, journal i.verbose s.console events, rfl, rfl, ?_, rfl, fun hsome => ?_⟩
    · simp [abandon]
    · obtain ⟨t, ht⟩ := Option.isSome_iff_exists.mp hsome
      change unread i.program settings s.stdin = s.stdin
      rw [ht, unread_some]
  | unmade events h hload' hnew =>
    obtain ⟨rfl, rfl⟩ := Prod.mk.inj (Except.ok.inj (hplan.symm.trans h))
    cases hload.symm.trans hload'
  | ready h hload' hnew hexecution hverbose hredirection =>
    obtain ⟨rfl, rfl⟩ := Prod.mk.inj (Except.ok.inj (hplan.symm.trans h))
    cases hload.symm.trans hload'

/-! ### Calls that run a program -/

theorem ending_conclude (session : Session) (o : Outcome) :
    (conclude session o).ending = match o.error? with
      | none => .returned 0
      | some (.stream f) => if f.kind = .brokenPipe then session.silence else .failed (.stream f)
      | some e => .failed e := by
  obtain ⟨error?, final⟩ := o
  cases error? with
  | none => rfl
  | some e =>
    cases e with
    | stream f =>
      by_cases hf : f.kind = .brokenPipe
      · simp [conclude, Fault.isBrokenPipe, hf]
      · simp [conclude, Fault.isBrokenPipe, hf]
    | _ => rfl

theorem endsWith_conclude {o : Outcome} (hp : prepare arguments s = .ok session)
    (ho : session.execution.run budget = some o) :
    EndsWith arguments s budget (conclude session o) (conclude session o).ending := by
  rw [ending_conclude]
  split
  case h_1 hnone => exact .finished hp ho hnone
  case h_2 f he =>
    split_ifs with hf
    · rw [Session.silence]
      cases session.redirection with
      | none => exact .stopped
      | some g => exact .failed _
    · exact .failed _
  case h_3 => exact .failed _

theorem endsWith_of_run {ending : Ending} (h : run budget arguments s = some r)
    (he : r.ending = ending) : EndsWith arguments s budget r ending := by
  subst he
  rw [run] at h
  cases hp : prepare arguments s with
  | error r' =>
    rw [hp] at h
    exact Option.some.inj h ▸ endsWith_of_prepare hp
  | ok session =>
    rw [hp] at h
    obtain ⟨o, ho, rfl⟩ := Option.map_eq_some_iff.mp h
    exact endsWith_conclude hp ho

/-- What a session runs: a program with its own table on a new machine. -/
theorem exists_of_session (h : prepare arguments s = .ok session) :
    ∃ code t state stdin, JumpTable.resolve code = .ok t ∧ state.InRange ∧
      session.execution = ⟨Image.ofTable code t, Config.start state stdin s.stdout⟩ := by
  have hprepared := prepared arguments s
  rw [h] at hprepared
  cases hprepared with
  | ready hplan hload hnew hexecution hverbose hredirection =>
    exact ⟨_, _, _, _, resolve_of_loading hload, State.inRange_of_new hnew, hexecution⟩

theorem redirection_of_session (h : prepare arguments s = .ok session) :
    session.redirection = s.redirection := by
  have hprepared := prepared arguments s
  rw [h] at hprepared
  cases hprepared with
  | ready hplan hload hnew hexecution hverbose hredirection => exact hredirection

theorem run_of_session {o : Outcome} (hp : prepare arguments s = .ok session)
    (ho : session.execution.run budget = some o) :
    run budget arguments s = some (conclude session o) := by
  rw [run, hp]
  exact congrArg (Option.map _) ho

/-- A pipe that breaks in a run is that of the sink: the failing command is a write. -/
theorem refuses_of_brokenPipe (hp : prepare arguments s = .ok session) {f : Fault}
    {final : Config} (h : session.execution.run budget = some ⟨some (.stream f), final⟩)
    (hf : f.kind = .brokenPipe) :
    ∃ m c, m < budget ∧
      session.execution.image.advance m session.execution.config = .running c ∧
      session.execution.image.instruction c = some .output ∧ c.Refuses .output (.stream f) := by
  obtain ⟨code, t, state, stdin, ht, hstate, hexecution⟩ := exists_of_session hp
  rw [hexecution] at h ⊢
  have hinside := Config.inside_start code hstate stdin s.stdout
  have hsafe := Execution.safeAfter_of_inside (JumpTable.holds_of_resolve ht)
    (JumpTable.balanced_of_resolve ht) hinside budget
  rw [Execution.run, Progress.outcome?_eq_failed] at h
  rw [Execution.SafeAfter, h] at hsafe
  obtain ⟨-, m, c, command, hm, hc, -, hx, hr⟩ := hsafe
  have hposition := (Image.advance_inside (JumpTable.holds_of_resolve ht)
    (JumpTable.balanced_of_resolve ht) hinside hc).position_nonneg
  have hcommand : command = .output := by
    cases hr with
    | write | flush => rfl
    | read hread hend => simp [Fault.isEndOfInput, hf] at hend
  subst hcommand
  refine ⟨m, c, hm, hc, ?_, hr⟩
  rw [Image.instruction_of_getElem? (Int.toNat_of_nonneg hposition).symm hx,
    Command.ofCodePoint?_codePoint]

/-- A read that fails as at the end of input is taken for it. -/
theorem step_of_missed (hp : prepare arguments s = .ok session) {n : Nat} {c : Config} {f : Fault}
    {rest : Input}
    (hc : session.execution.image.advance n session.execution.config = .running c)
    (hi : session.execution.image.instruction c = some .input)
    (hread : c.input.read 1 = (.fault f, rest)) (hf : f.isEndOfInput = true) :
    ∃ d, session.execution.image.step c = .running d := by
  obtain ⟨code, t, state, stdin, ht, hstate, hexecution⟩ := exists_of_session hp
  rw [hexecution] at hc hi ⊢
  have hinside := Image.advance_inside (JumpTable.holds_of_resolve ht)
    (JumpTable.balanced_of_resolve ht) (Config.inside_start code hstate stdin s.stdout) hc
  rcases Image.step_eq_perform (Image.ofTable code t) c with hstep | ⟨hnone, -⟩
  · have hbyte : Reply.byte? (.fault f) = .ok none := by rw [Reply.byte?, if_pos hf]
    rw [hstep, hi]
    exact ⟨_, Config.read_of_byte? (c := c.tick) hinside.tick.inRange hread hbyte⟩
  · rw [hi] at hnone
    cases hnone

theorem run_of_brokenPipe (hp : prepare arguments s = .ok session) {f : Fault} {final : Config}
    (h : session.execution.run budget = some ⟨some (.stream f), final⟩)
    (hf : f.kind = .brokenPipe) :
    ∃ r, run budget arguments s = some r ∧ (s.redirection = none → r.ending = .returned 1) ∧
      (∀ g, s.redirection = some g → r.ending = .failed (.stream g)) ∧
      r.stdout.written.toList = s.stdout.written.toList ++
        session.execution.image.accepted budget session.execution.config := by
  obtain ⟨code, t, state, stdin, -, -, hexecution⟩ := exists_of_session hp
  have hwritten := session.execution.image.written_advance budget session.execution.config
  have hending : (conclude session ⟨some (.stream f), final⟩).ending = session.silence := by
    rw [ending_conclude]
    exact if_pos hf
  rw [Session.silence, redirection_of_session hp] at hending
  refine ⟨_, run_of_session hp h, fun hnone => ?_, fun g hg => ?_, ?_⟩
  · rw [hending, hnone]
  · rw [hending, hg]
  · rw [Execution.run, Progress.outcome?_eq_failed] at h
    rw [h] at hwritten
    refine hwritten.trans ?_
    rw [hexecution]
    rfl

/-- Every call is classified by how it ends. -/
theorem classified (arguments : List Text) (s : Surroundings) : Classified arguments s where
  refused_iff budget := by
    constructor
    · rintro ⟨r, h, h₂⟩
      cases endsWith_of_run h h₂ with
      | refused hplan hstdin hstdout => exact ⟨_, hplan⟩
    · rintro ⟨e, he⟩
      exact ⟨refuse s e, run_of_usage he budget, rfl⟩
  refused budget r h h₂ := by
    cases endsWith_of_run h h₂ with
    | refused hplan hstdin hstdout => exact ⟨hstdin, hstdout⟩
  rejected i settings e hplan hload budget := run_of_rejected hplan hload budget
  finished_iff budget := by
    constructor
    · rintro ⟨r, h, h₀⟩
      cases endsWith_of_run h h₀ with
      | finished hp ho hnone => exact ⟨_, _, hp, ho, hnone⟩
    · rintro ⟨session, o, hp, ho, hnone⟩
      refine ⟨conclude session o, run_of_session hp ho, ?_⟩
      rw [ending_conclude, hnone]
  broken session budget f final hp h hf :=
    ⟨run_of_brokenPipe hp h hf, refuses_of_brokenPipe hp h hf⟩
  returned_cases budget r n h hn := by
    cases endsWith_of_run h hn with
    | finished => exact .inl rfl
    | stopped => exact .inr rfl
  exited_cases budget r n h hn := by
    cases endsWith_of_run h hn with
    | helped hplan => exact .inl ⟨rfl, hplan⟩
    | refused => exact .inr rfl
  missed session n c f rest hp hc hi hread hf := by
    refine step_of_missed hp hc hi hread ?_
    rcases hf with h | h | h
    · simp [Fault.isEndOfInput, h]
    · simp [Fault.isEndOfInput, h]
    · simp [Fault.isEndOfInput, h]

/-- A loop that writes to a pipe which breaks after one byte, with a standard output that can be
sent elsewhere and with one that has no descriptor. -/
theorem classified_broken_pipe :
    (∃ r, run 5 ["--tape-size", "1", "+[.]"]
        ⟨fun _ => none, .memory (.bytes []), { writeLimit := some 1 }, .upTo 9, none, "bfi.cli"⟩ =
        some r ∧ r.ending = .returned 1 ∧ r.stdout.written.toList = [1]) ∧
    ∃ r, run 5 ["--tape-size", "1", "+[.]"]
        ⟨fun _ => none, .memory (.bytes []), { writeLimit := some 1 }, .upTo 9,
          some ⟨.refused, "fileno"⟩, "bfi.cli"⟩ =
        some r ∧ r.ending = .failed (.stream ⟨.refused, "fileno"⟩) ∧
          r.stdout.written.toList = [1] := by
  have hbroken := fun redirection => (classified ["--tape-size", "1", "+[.]"] ⟨fun _ => none,
    .memory (.bytes []), { writeLimit := some 1 }, .upTo 9, redirection, "bfi.cli"⟩).broken _ 5
      ⟨.brokenPipe, "pipe closed"⟩
      ⟨⟨#[1], 0, 2, 5, 0, 1, 0⟩, .memory (.bytes []),
        { writeLimit := some 1, written := #[1], writes := 1, flushes := 1 }, #[]⟩ rfl
      rfl rfl
  obtain ⟨⟨r, hr, hreturned, -, hwritten⟩, -⟩ := hbroken none
  obtain ⟨⟨r', hr', -, hfailed, hwritten'⟩, -⟩ := hbroken (some ⟨.refused, "fileno"⟩)
  refine ⟨⟨r, hr, hreturned rfl, hwritten.trans ?_⟩, r', hr', hfailed _ rfl, hwritten'.trans ?_⟩
  · decide +kernel
  · decide +kernel

end Brainfuck.CommandLine
