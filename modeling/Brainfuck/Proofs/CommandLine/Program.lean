import Brainfuck.CommandLine.Run
import Brainfuck.Proofs.CommandLine.Options
import Mathlib.Data.List.TakeWhile

/-! Which argument is the program. A text behind the separator is the program whatever it looks
like, and so is a text of commands without one: it is an operand, or it looks like an option, fits
none, and is left over. Only two decrements alone are the separator itself. -/

namespace Brainfuck

theorem Text.ofCodePoint?_of_mem_ofCommands {cs : List Command} {x : CodePoint}
    (h : x ∈ Text.ofCommands cs) : Command.ofCodePoint? x ≠ none := by
  obtain ⟨c, -, rfl⟩ := List.mem_map.mp h
  simp

namespace CommandLine

namespace Flag

theorem exists_long_eq (f : Flag) :
    ∃ x rest, f.long = dash :: dash :: x :: rest ∧ Command.ofCodePoint? x = none := by
  cases f <;> exact ⟨_, _, rfl, by decide⟩

theorem ofCodePoint?_letter {f : Flag} {x : CodePoint} (h : f.letter? = some x) :
    Command.ofCodePoint? x = none := by
  cases f with
  | help | verbose => exact Option.some.inj h ▸ by decide
  | tapeSize | programMax | strict => simp [letter?] at h

variable {cs : List Command}

theorem named?_ofCommands (cs : List Command) : named? (Text.ofCommands cs) = none := by
  have hshort : all.find? (fun f => f.short? == some (Text.ofCommands cs)) = none := by
    refine List.find?_eq_none.mpr fun f _ h => ?_
    rw [beq_iff_eq, short?, Option.map_eq_some_iff] at h
    obtain ⟨x, hx, h⟩ := h
    exact Text.ofCodePoint?_of_mem_ofCommands (x := x) (by rw [← h]; simp) (ofCodePoint?_letter hx)
  have hlong : all.find? (fun f => f.long == Text.ofCommands cs) = none := by
    refine List.find?_eq_none.mpr fun f _ h => ?_
    obtain ⟨x, rest, hf, hx⟩ := f.exists_long_eq
    rw [beq_iff_eq, hf] at h
    exact Text.ofCodePoint?_of_mem_ofCommands (x := x) (by rw [← h]; simp) hx
  rw [named?, hshort, hlong]
  rfl

theorem ofLetter?_codePoint (c : Command) : ofLetter? c.codePoint = none := by
  cases c <;> decide

/-- Two dashes and a command start no long name. -/
theorem completions_cons {t : Text} {c : Command} :
    completions (dash :: dash :: c.codePoint :: t) = [] := by
  refine List.filter_eq_nil_iff.mpr fun f _ h => ?_
  obtain ⟨x, rest, hf, hx⟩ := f.exists_long_eq
  rw [hf] at h
  obtain rfl : c.codePoint = x := by simp [List.isPrefixOf] at h; exact h.1
  simp at hx

end Flag

namespace Argument

theorem splitValue_ofCommands (cs : List Command) :
    splitValue (Text.ofCommands cs) = (Text.ofCommands cs, none) := by
  have h : ∀ x ∈ Text.ofCommands cs, (x != equals) = true := by
    intro x hx
    rw [bne_iff_ne]
    rintro rfl
    exact Text.ofCodePoint?_of_mem_ofCommands hx (by decide)
  rw [splitValue, List.takeWhile_eq_self_iff.mpr h, List.dropWhile_eq_nil_iff.mpr h]

/-- A text that no option completes and that has no option's letter is undecided, or an operand. -/
theorem roleOfDashed_cons {t attached : Text} {c : CodePoint} (hsplit : splitValue t = (t, none))
    (hlong : c = Flag.dash → Flag.completions t = [])
    (hshort : c ≠ Flag.dash → Flag.ofLetter? c = none) :
    roleOfDashed t (c :: attached) = .ok .operand ∨
      roleOfDashed t (c :: attached) = .ok .unknown := by
  have hrole : roleOfDashed t (c :: attached) =
      .ok (if isNumber (c :: attached) ∨ Text.blank ∈ t then .operand else .unknown) := by
    rw [roleOfDashed, hsplit]
    by_cases hc : c = Flag.dash
    · simp only [if_pos hc, hlong hc, List.map_nil]
    · simp only [if_neg hc, hshort hc, Option.toList_none, List.map_nil]
  rw [hrole]
  split_ifs
  · exact .inl rfl
  · exact .inr rfl

/-- A text of commands that is not the separator is never taken for an option. -/
theorem roleOf_ofCommands {cs : List Command} (h : Text.ofCommands cs ≠ doubleDash) :
    roleOf (Text.ofCommands cs) = .ok .operand ∨ roleOf (Text.ofCommands cs) = .ok .unknown := by
  have hnamed := Flag.named?_ofCommands cs
  have hsplit := splitValue_ofCommands cs
  cases cs with
  | nil => exact .inl rfl
  | cons c cs =>
    simp only [Text.ofCommands, List.map_cons] at *
    by_cases hc : c.codePoint = Flag.dash
    · rw [roleOf, if_neg (not_not.mpr hc), hnamed]
      cases cs with
      | nil => exact .inl rfl
      | cons d cs =>
        refine roleOfDashed_cons hsplit (fun hd => ?_) fun _ => Flag.ofLetter?_codePoint d
        -- with a second dash there is a third command, or the text is the separator
        cases cs with
        | nil => exact absurd (by rw [hc, List.map_cons, hd]; rfl) h
        | cons e cs =>
          rw [List.map_cons, List.map_cons, hc, hd]
          exact Flag.completions_cons
    · exact .inl (by rw [roleOf, if_pos hc])

end Argument

namespace Invocation

variable (choices : List Choice)

theorem ofArguments_options :
    ofArguments (choices.flatMap Choice.arguments) = .ok (ofChoices choices) := by
  have h := ofArguments_choices choices (show Argument.classify [] = .ok [] from rfl)
  obtain ⟨-, -, hextras, -, -⟩ := onlyOptions_ofChoices choices
  rw [List.append_nil] at h
  rw [h]
  change (ofChoices choices).adopt = _
  rw [adopt, hextras]

theorem ofArguments_separator (t : Text) :
    ofArguments (choices.flatMap Choice.arguments ++ [Argument.doubleDash, t]) =
      .ok ((ofChoices choices).place (some t)) := by
  obtain ⟨-, hplaced, hextras, -, -⟩ := onlyOptions_ofChoices choices
  rw [ofArguments_choices choices (Argument.classify_separator [t])]
  simp [consume, take, place, adopt, hplaced, hextras, Except.bind]

theorem ofArguments_separator_last :
    ofArguments (choices.flatMap Choice.arguments ++ [Argument.doubleDash]) =
      .ok ((ofChoices choices).place none) := by
  obtain ⟨-, hplaced, hextras, -, -⟩ := onlyOptions_ofChoices choices
  rw [ofArguments_choices choices (Argument.classify_separator [])]
  simp [consume, take, place, adopt, hplaced, hextras, Except.bind, Except.map]

/-- A text of commands is the program without a separator, as an operand or left over. -/
theorem ofArguments_ofCommands {cs : List Command}
    (h : Text.ofCommands cs ≠ Argument.doubleDash) :
    ∃ placed, ofArguments (choices.flatMap Choice.arguments ++ [Text.ofCommands cs]) =
      .ok { ofChoices choices with program := some (Text.ofCommands cs), placed } := by
  obtain ⟨hprogram, hplaced, hextras, -, -⟩ := onlyOptions_ofChoices choices
  rcases Argument.roleOf_ofCommands h with hr | hr
  · rw [ofArguments_choices choices (Argument.classify_cons h hr [])]
    exact ⟨true, by simp [consume, take, place, adopt, hplaced, hextras, Except.bind, Except.map]⟩
  · rw [ofArguments_choices choices (Argument.classify_cons h hr [])]
    refine ⟨false, ?_⟩
    simp [consume, take, addExtra, adopt, hprogram, hplaced, hextras, Except.bind, Except.map]

end Invocation

/-! ### The same call -/

/-- The arguments are accepted and ask for this program; for `none` it is to come from standard
input. -/
def AsksFor (arguments : List Text) (environment : Environment) (program? : Option Text) : Prop :=
  ∃ i settings, plan arguments environment = .ok (i, settings) ∧ i.program = program?

variable {arguments arguments' : List Text} {i j : Invocation} {placed : Bool}

theorem asksFor_of_ofArguments {choices : List Choice} {program? : Option Text}
    (h : Invocation.ofArguments arguments =
      .ok { Invocation.ofChoices choices with program := program?, placed })
    {environment : Environment} {settings : Settings}
    (he : Settings.ofEnvironment environment = .ok settings) :
    AsksFor arguments environment program? := by
  have hvalid := Settings.valid_of_ofEnvironment he
  have hsettle := (Invocation.onlyOptions_ofChoices choices).settle_eq hvalid
  refine ⟨{ Invocation.ofChoices choices with program := program?, placed },
    settings.replace (Invocation.ofChoices choices).override, ?_, rfl⟩
  rw [plan, h, he]
  exact congrArg (Except.map _) hsettle

/-- How the place of the program was taken makes no difference. -/
theorem prepare_congr (h : Invocation.ofArguments arguments = .ok i)
    (h' : Invocation.ofArguments arguments' = .ok j) (hij : j = { i with placed := j.placed })
    (s : Surroundings) : prepare arguments s = prepare arguments' s := by
  rw [prepare, prepare, planned, planned, plan, plan, h, h', hij]
  cases Settings.ofEnvironment s.environment with
  | error e => rfl
  | ok settings =>
    have hsettle : ∀ p, ({ i with placed := p } : Invocation).settle settings = i.settle settings :=
      fun _ => rfl
    simp only [hsettle]
    cases i.settle settings with
    | error stop => cases stop <;> rfl
    | ok settings => rfl

theorem run_congr (h : Invocation.ofArguments arguments = .ok i)
    (h' : Invocation.ofArguments arguments' = .ok j) (hij : j = { i with placed := j.placed })
    (budget : Nat) (s : Surroundings) : run budget arguments s = run budget arguments' s := by
  rw [run, run, prepare_congr h h' hij]

/-- A text of commands needs no separator in front of it, whatever options precede it. Two
decrements are the exception: they are the separator themselves, and the program is read from
standard input. -/
theorem run_ofCommands (choices : List Choice) (cs : List Command) (s : Surroundings)
    {settings : Settings} (henv : Settings.ofEnvironment s.environment = .ok settings) :
    (Text.ofCommands cs ≠ Argument.doubleDash →
      AsksFor (choices.flatMap Choice.arguments ++ [Text.ofCommands cs]) s.environment
        (some (Text.ofCommands cs)) ∧
      ∀ budget, run budget (choices.flatMap Choice.arguments ++ [Text.ofCommands cs]) s =
        run budget
          (choices.flatMap Choice.arguments ++ [Argument.doubleDash, Text.ofCommands cs]) s) ∧
    (Text.ofCommands cs = Argument.doubleDash →
      AsksFor (choices.flatMap Choice.arguments ++ [Text.ofCommands cs]) s.environment none ∧
      ∀ budget, run budget (choices.flatMap Choice.arguments ++ [Text.ofCommands cs]) s =
        run budget (choices.flatMap Choice.arguments) s) := by
  constructor
  · intro h
    obtain ⟨placed, hbare⟩ := Invocation.ofArguments_ofCommands choices h
    refine ⟨asksFor_of_ofArguments hbare henv, fun budget => ?_⟩
    exact run_congr hbare (Invocation.ofArguments_separator choices _) rfl budget s
  · intro h
    have hlast := Invocation.ofArguments_separator_last choices
    have hnone := (Invocation.onlyOptions_ofChoices choices).program_eq
    have hoptions := Invocation.ofArguments_options choices
    rw [h]
    refine ⟨asksFor_of_ofArguments hlast henv, fun budget => ?_⟩
    exact run_congr hlast hoptions (by rw [Invocation.place, ← hnone]) budget s

/-- Options, one with a signed and grouped numeral, before a program that starts with a dash and
before the separator alone. -/
theorem run_ofCommands_after_options :
    (∀ budget, run budget ["--tape-size", "+0_3", "-v", "-[.-]"]
        ⟨fun _ => none, .memory (.bytes [0x2B, 0x2E]), {}, .upTo 9, none, "bfi.cli"⟩ =
      run budget ["--tape-size", "+0_3", "-v", "--", "-[.-]"]
        ⟨fun _ => none, .memory (.bytes [0x2B, 0x2E]), {}, .upTo 9, none, "bfi.cli"⟩) ∧
    ∀ budget, run budget ["--strict", "--"]
        ⟨fun _ => none, .memory (.bytes [0x2B, 0x2E]), {}, .upTo 9, none, "bfi.cli"⟩ =
      run budget ["--strict"]
        ⟨fun _ => none, .memory (.bytes [0x2B, 0x2E]), {}, .upTo 9, none, "bfi.cli"⟩ := by
  have hdashed := run_ofCommands [.tapeSize ⟨"+0_3", 3, by decide, by decide⟩, .verbose]
    [.decrement, .loopStart, .output, .decrement, .loopEnd]
    ⟨fun _ => none, .memory (.bytes [0x2B, 0x2E]), {}, .upTo 9, none, "bfi.cli"⟩ rfl
  have hseparator := run_ofCommands [.strict] [.decrement, .decrement]
    ⟨fun _ => none, .memory (.bytes [0x2B, 0x2E]), {}, .upTo 9, none, "bfi.cli"⟩ rfl
  exact ⟨(hdashed.1 (by decide)).2, (hseparator.2 (by decide)).2⟩

/-- Two decrements in the place of the program are not run: the program comes from standard input.
Behind the separator they are run, and standard input is left as it is. -/
theorem run_doubleDash_reads_program :
    Settings.ofEnvironment (fun v => if v = .tapeSize then some "1" else none) =
      .ok { tapeSize := 1 } ∧
    (run 3 [Text.ofCommands [.decrement, .decrement]]
      ⟨fun v => if v = .tapeSize then some "1" else none, .memory (.bytes [0x2B, 0x2E]), {},
        .upTo 9, none, "bfi.cli"⟩).map
        (fun r => (r.stdout.written, r.stdin)) = some (#[1], .memory (.bytes [])) ∧
    (run 3 [Argument.doubleDash, Text.ofCommands [.decrement, .decrement]]
      ⟨fun v => if v = .tapeSize then some "1" else none, .memory (.bytes [0x2B, 0x2E]), {},
        .upTo 9, none, "bfi.cli"⟩).map
        (fun r => (r.stdout.written, r.stdin)) = some (#[], .memory (.bytes [0x2B, 0x2E])) := by
  refine ⟨rfl, ?_, ?_⟩
  · decide +kernel
  · decide +kernel

end CommandLine

end Brainfuck
