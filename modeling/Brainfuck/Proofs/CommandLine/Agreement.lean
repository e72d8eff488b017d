import Brainfuck.Proofs.CommandLine.Preparation
import Brainfuck.Proofs.CommandLine.Program
import Brainfuck.Proofs.Machine.Streams
import Brainfuck.Proofs.Run.Agreement

/-! A program behind the separator runs as it does from its source with the settings of the
environment: the exit status tells how the run ended, and the streams are those of the run. -/

namespace Brainfuck.CommandLine

/-- A run of a source and a call of the command line have come to the same: both are still running;
or the run has ended and its output is on standard output; or the program was rejected, the message
is all that was written, and nothing was read; or both have failed for one reason. -/
inductive Answers (s : Surroundings) : Option (Except Error Report) → Option Result → Prop
  | running : Answers s none none
  | finished {report : Report} {r : Result} (hending : r.ending = .returned 0)
    (hstdout : r.stdout = s.stdout.after report.output.toList) (hstderr : r.stderr = []) :
    Answers s (some (.ok report)) (some r)
  | rejected {e : Rejection} {r : Result} (hending : r.ending = .returned 1)
    (hstdin : r.stdin = s.stdin) (hstdout : r.stdout = s.stdout)
    (hstderr : r.stderr = e.message ++ [Text.newline]) :
    Answers s (some (.error (.rejected e))) (some r)
  | failed {e : Error} {r : Result} (he : ∀ x, e ≠ .rejected x) (hending : r.ending = .failed e) :
    Answers s (some (.error e)) (some r)

variable {s : Surroundings}

theorem answers_abandon (e : Error) :
    Answers s (some (.error e)) (some (abandon e s.stdin s.stdout [])) := by
  cases e with
  | rejected r => exact .rejected rfl rfl rfl rfl
  | _ => exact .failed nofun rfl

theorem plan_separator (t : Text) {environment : Environment} {settings : Settings}
    (h : Settings.ofEnvironment environment = .ok settings) :
    plan [Argument.doubleDash, t] environment =
      .ok (({} : Invocation).place (some t), settings) := by
  have hvalid := Settings.valid_of_ofEnvironment h
  have hsettle := (Invocation.onlyOptions_ofChoices []).settle_eq hvalid
  have harguments := Invocation.ofArguments_separator [] t
  rw [List.flatMap_nil, List.nil_append] at harguments
  rw [plan, harguments, h]
  exact congrArg (Except.map _) hsettle

section Source

variable {source : Source} {settings : Settings} {program : Program} {t : JumpTable}

variable (memory : Memory)

theorem prepareSource_of_load_error {e : Error} (h : load source settings = .error e)
    (input : Source) : prepareSource memory source input settings = .error e := by
  rw [prepareSource, h]
  rfl

theorem prepareSource_of_load (h : load source settings = .ok (program, t)) (input : List UInt8) :
    prepareSource memory source (.bytes input) settings =
      (State.new memory settings.tapeSize).map fun state => (program,
        ⟨Image.ofTable program.text t, Config.start state (.memory (.bytes input)) {}⟩) := by
  rw [prepareSource, h]
  simp only [bind, Except.bind, Source.inputBytes, Execution.start_table_eq]
  cases State.new memory settings.tapeSize <;> rfl

end Source

/-- A run on a new machine, from memory to a sink that never fails, only comes to its end. -/
theorem error?_of_new {code : Text} {t : JumpTable} (ht : JumpTable.resolve code = .ok t)
    {memory : Memory} {tapeSize : Int} {state : State}
    (hnew : State.new memory tapeSize = .ok state) (input : List UInt8) {budget : Nat} {o : Outcome}
    (h : Execution.run ⟨Image.ofTable code t, Config.start state (.memory (.bytes input)) {}⟩
      budget = some o) : o.error? = none :=
  Execution.error?_of_reliable (JumpTable.holds_of_resolve ht) (JumpTable.balanced_of_resolve ht)
    (Config.inside_start code (State.inRange_of_new hnew) _ _)
    ⟨⟨.bytes input, rfl⟩, Sink.neverFails_default⟩ h

/-- A session that nobody watches reports what its run comes to. -/
theorem answers_conclude {session : Session} {p : Execution} {budget : Nat} {program : Program}
    (hk : s.stdout.NeverFails) (hp : p.config.sink = {})
    (hsession : session.execution = p.redirect s.stdout) (hverbose : session.verbose = false)
    (hend : ∀ o, p.run budget = some o → o.error? = none) :
    Answers s
      ((p.run budget).map fun o =>
        match o.error? with
        | some e => .error e
        | none => .ok { output := o.final.sink.written, state := o.final.state, program })
      ((session.execution.run budget).map (conclude session)) := by
  have hnew : p.config.sink.NeverFails := hp ▸ Sink.neverFails_default
  rw [hsession, Execution.run_redirect hk hnew]
  cases ho : p.run budget with
  | none => exact .running
  | some o =>
    obtain ⟨error?, final⟩ := o
    obtain rfl : error? = none := hend _ ho
    refine .finished rfl rfl ?_
    simp [conclude, journal, hverbose]

/-- A program behind the separator, whatever it looks like, is run as from its source with the
settings of the environment. -/
theorem run_separator_answers {settings : Settings}
    (h : Settings.ofEnvironment s.environment = .ok settings) {input : List UInt8}
    (hstdin : s.stdin = .memory (.bytes input)) (hk : s.stdout.NeverFails) (program : Text)
    (budget : Nat) :
    Answers s (runSource s.memory budget (.text program) (.bytes input) settings)
      (run budget [Argument.doubleDash, program] s) := by
  have hplan := plan_separator program h
  have hload := loading_some (Settings.valid_of_ofEnvironment h) program s.stdin
  have hprepared := prepared [Argument.doubleDash, program] s
  rw [runSource, run]
  generalize prepare [Argument.doubleDash, program] s = result at hprepared ⊢
  cases hprepared with
  | help hp => simp [hplan] at hp
  | refused hp => simp [hplan] at hp
  | failed hp => simp [hplan] at hp
  | unloaded events hp hload' =>
    obtain ⟨rfl, rfl⟩ := Prod.mk.inj (Except.ok.inj (hplan.symm.trans hp))
    rw [prepareSource_of_load_error s.memory (hload.symm.trans hload')]
    exact answers_abandon _
  | unmade events hp hload' hnew =>
    obtain ⟨rfl, rfl⟩ := Prod.mk.inj (Except.ok.inj (hplan.symm.trans hp))
    rw [prepareSource_of_load s.memory (hload.symm.trans hload'), hnew]
    exact answers_abandon _
  | ready hp hload' hnew hexecution hverbose hredirection =>
    obtain ⟨rfl, rfl⟩ := Prod.mk.inj (Except.ok.inj (hplan.symm.trans hp))
    rw [prepareSource_of_load s.memory (hload.symm.trans hload'), hnew]
    refine answers_conclude hk rfl ?_ hverbose fun o => ?_
    · rw [hexecution, Execution.redirect, Config.redirect_start, ← hstdin]
      rfl
    · exact error?_of_new (resolve_of_loading hload') hnew input

/-- A program that looks like an option is run, on the tape that the environment asks for. -/
theorem run_separator_answers_help :
    ∃ r, run 4 [Argument.doubleDash, "--help."]
        ⟨fun v => if v = .tapeSize then some " 2" else none, .memory (.bytes [7]), {}, .upTo 9,
          none, "bfi.cli"⟩ =
      some r ∧ r.ending = .returned 0 ∧ r.stdout.written = #[254] ∧ r.stderr = [] := by
  have hsource : runSource (.upTo 9) 4 (.text "--help.") (.bytes [7]) { tapeSize := 2 } =
      some (.ok ⟨#[254], ⟨#[254, 0], 0, 3, 3, 0, 1, 0⟩,
        ⟨[.decrement, .decrement, .output], false, 65536⟩⟩) := by
    decide +kernel
  have h := run_separator_answers
    (s := ⟨fun v => if v = .tapeSize then some " 2" else none, .memory (.bytes [7]), {}, .upTo 9,
      none, "bfi.cli"⟩)
    (show _ = Except.ok { tapeSize := 2 } from rfl) rfl Sink.neverFails_default "--help." 4
  rw [hsource] at h
  generalize run _ _ _ = result at h ⊢
  cases h with
  | finished hending hstdout hstderr => exact ⟨_, rfl, hending, by rw [hstdout]; rfl, hstderr⟩

end Brainfuck.CommandLine
