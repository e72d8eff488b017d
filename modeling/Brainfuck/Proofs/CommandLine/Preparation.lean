import Brainfuck.CommandLine.Run
import Brainfuck.Proofs.Machine.Run
import Brainfuck.Proofs.Machine.Safety
import Brainfuck.Proofs.Settings.Valid

/-! Everything a call does before the first instruction: the arguments and the environment are
looked at, the program is loaded, a machine is made. Each stage can end the call, and no stage
touches standard output but the one that prints the help text. -/

namespace Brainfuck

namespace State

theorem inRange_of_new {memory : Memory} {tapeSize : Int} {s : State}
    (h : new memory tapeSize = .ok s) : s.InRange := by
  obtain ⟨h₀, -, rfl⟩ := eq_of_new h
  exact ⟨le_rfl, by simp; omega⟩

end State

namespace Execution

theorem start_table_eq (memory : Memory) (code : Text) (t : JumpTable) (tapeSize : Int)
    (input : Input) (sink : Sink) :
    start memory code (some t) none tapeSize input sink =
      (State.new memory tapeSize).map fun s =>
        ⟨Image.ofTable code t, Config.start s input sink⟩ := by
  unfold start
  cases State.new memory tapeSize <;> rfl

end Execution

namespace CommandLine

/-- The program that a call is about and its jump table. -/
def loading (program? : Option Text) (settings : Settings) (stdin : Input) :
    Except Error (Program × JumpTable) :=
  match (collect program? settings stdin).1 with
  | .error e => .error e
  | .ok program => ((JumpTable.resolve program.text).map (program, ·)).mapError Error.rejected

/-- What loading the program leaves of standard input. -/
def unread (program? : Option Text) (settings : Settings) (stdin : Input) : Input :=
  (collect program? settings stdin).2.2

@[simp]
theorem unread_some (t : Text) (settings : Settings) (stdin : Input) :
    unread (some t) settings stdin = stdin := rfl

theorem resolve_of_loading {program? : Option Text} {settings : Settings} {stdin : Input}
    {program : Program} {t : JumpTable}
    (h : loading program? settings stdin = .ok (program, t)) :
    JumpTable.resolve program.text = .ok t := by
  rw [loading] at h
  cases hc : (collect program? settings stdin).1 with
  | error e => simp [hc] at h
  | ok collected =>
    simp only [hc] at h
    cases hr : JumpTable.resolve collected.text with
    | error r =>
      rw [hr] at h
      cases h
    | ok t' =>
      rw [hr] at h
      obtain ⟨rfl, rfl⟩ := Prod.mk.inj (Except.ok.inj h)
      exact hr

theorem loading_some {settings : Settings} (h : settings.Valid) (t : Text) (stdin : Input) :
    loading (some t) settings stdin = load (.text t) settings := by
  simp only [loading, collect, load, h.validate_eq, bind, Except.bind]
  cases (Source.text t).program settings.programMax settings.strict with
  | error e => rfl
  | ok program =>
    simp only
    cases JumpTable.resolve program.text <;> rfl

/-- How the preparation of a call can end. -/
inductive Prepared (arguments : List Text) (s : Surroundings) : Except Result Session → Prop where
  | help (h : plan arguments s.environment = .error .help) :
    Prepared arguments s (.error (printHelp s))
  | refused {e : UsageError} (h : plan arguments s.environment = .error (.usage e)) :
    Prepared arguments s (.error (refuse s e))
  | failed {e : Error} (h : plan arguments s.environment = .error (.failure e)) :
    Prepared arguments s (.error (abandon e s.stdin s.stdout []))
  | unloaded {i : Invocation} {settings : Settings} {e : Error} (events : List Event)
    (h : plan arguments s.environment = .ok (i, settings))
    (hload : loading i.program settings s.stdin = .error e) :
    Prepared arguments s (.error (abandon e (unread i.program settings s.stdin) s.stdout
      (journal i.verbose s.console events)))
  | unmade {i : Invocation} {settings : Settings} {program : Program} {t : JumpTable} {e : Error}
    (events : List Event) (h : plan arguments s.environment = .ok (i, settings))
    (hload : loading i.program settings s.stdin = .ok (program, t))
    (hnew : State.new s.memory settings.tapeSize = .error e) :
    Prepared arguments s (.error (abandon e (unread i.program settings s.stdin) s.stdout
      (journal i.verbose s.console events)))
  | ready {i : Invocation} {settings : Settings} {program : Program} {t : JumpTable}
    {state : State} {session : Session} (h : plan arguments s.environment = .ok (i, settings))
    (hload : loading i.program settings s.stdin = .ok (program, t))
    (hnew : State.new s.memory settings.tapeSize = .ok state)
    (hexecution : session.execution = ⟨Image.ofTable program.text t,
      Config.start state (unread i.program settings s.stdin) s.stdout⟩)
    (hverbose : session.verbose = i.verbose)
    (hredirection : session.redirection = s.redirection) :
    Prepared arguments s (.ok session)

theorem prepared_of_plan {arguments : List Text} {s : Surroundings} {i : Invocation}
    {settings : Settings} (h : plan arguments s.environment = .ok (i, settings)) :
    Prepared arguments s (prepare arguments s) := by
  cases hc : collect i.program settings s.stdin with
  | mk result rest =>
    obtain ⟨origin, stdin⟩ := rest
    have hunread : unread i.program settings s.stdin = stdin := by rw [unread, hc]
    cases result with
    | error e =>
      have hload : loading i.program settings s.stdin = .error e := by rw [loading, hc]
      have hlog : journal i.verbose s.console [] = [] := by simp [journal]
      have hp := Prepared.unloaded [] h hload
      rw [hunread, hlog] at hp
      simpa only [prepare, planned, h, hc, ready] using hp
    | ok program =>
      have hload : loading i.program settings s.stdin =
          ((JumpTable.resolve program.text).map (program, ·)).mapError Error.rejected := by
        rw [loading, hc]
      simp only [prepare, planned, h, hc, ready, Execution.start_table_eq]
      cases hr : JumpTable.resolve program.text with
      | error r =>
        rw [hr] at hload
        rw [← hunread]
        exact .unloaded _ h hload
      | ok t =>
        rw [hr] at hload
        cases hnew : State.new s.memory settings.tapeSize with
        | error e =>
          rw [← hunread]
          exact .unmade _ h hload hnew
        | ok state => exact .ready h hload hnew (hunread ▸ rfl) rfl rfl

theorem prepared (arguments : List Text) (s : Surroundings) :
    Prepared arguments s (prepare arguments s) := by
  cases h : plan arguments s.environment with
  | ok p => exact prepared_of_plan h
  | error stop =>
    rw [prepare, planned, h]
    cases stop with
    | help => exact .help h
    | usage e => exact .refused h
    | failure e => exact .failed h

end CommandLine

end Brainfuck
