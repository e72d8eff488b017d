import Brainfuck.CommandLine.Invocation
import Brainfuck.Proofs.Settings.Valid

/-! Options in front of other arguments. Each is recognized by its name, takes the numeral behind it
if it needs one, and sets what it is named for; what follows is read from there on. -/

namespace Brainfuck

theorem Text.trim_cons {p : CodePoint → Bool} {x : CodePoint} (hx : p x = false) (t : Text) :
    ∃ rest, Text.trim p (x :: t) = x :: rest := by
  rw [trim, List.dropWhile_cons_of_neg (by simp [hx]), List.reverse_cons, List.dropWhile_append]
  split
  · exact ⟨[], by simp [hx]⟩
  · exact ⟨_, by rw [List.reverse_append]; rfl⟩

namespace Numeral

/-- A numeral that starts with a minus sign denotes no positive number. -/
theorem nonpos_of_parse?_dash {t : Text} {n : Int}
    (h : parse? (CommandLine.Flag.dash :: t) = some n) : n ≤ 0 := by
  obtain ⟨rest, hr⟩ := Text.trim_cons (show CommandLine.Flag.dash.isSpace = false by decide) t
  have hdash : CommandLine.Flag.dash = .ofChar '-' := rfl
  rw [parse?, hr, signed?, if_pos hdash, Option.map_eq_some_iff] at h
  obtain ⟨k, hk, rfl⟩ := h
  obtain ⟨m, -, hm⟩ := Option.bind_eq_some_iff.mp hk
  have : (m : Int) = k := Option.some.inj hm
  omega

end Numeral

namespace CommandLine

structure PositiveNumeral where
  text : Text
  value : Int
  parse?_text : Numeral.parse? text = some value
  value_pos : 0 < value

inductive Choice where
  | strict
  | verbose
  | tapeSize (n : PositiveNumeral)
  | programMax (n : PositiveNumeral)

namespace Choice

/-- How an option is written. -/
def arguments : Choice → List Text
  | strict => ["--strict"]
  | verbose => ["-v"]
  | tapeSize n => ["--tape-size", n.text]
  | programMax n => ["--program-max", n.text]

/-- How what is written is read. -/
def roles : Choice → List Argument
  | strict => [⟨"--strict", .flag .strict .long none⟩]
  | verbose => [⟨"-v", .flag .verbose .short none⟩]
  | tapeSize n => [⟨"--tape-size", .flag .tapeSize .long none⟩, ⟨n.text, .operand⟩]
  | programMax n => [⟨"--program-max", .flag .programMax .long none⟩, ⟨n.text, .operand⟩]

/-- What an option asks for. -/
def apply (i : Invocation) : Choice → Invocation
  | strict => { i with strict := true }
  | verbose => { i with verbose := true }
  | tapeSize n => { i with tapeSize := some (.number n.value) }
  | programMax n => { i with programMax := some (.number n.value) }

end Choice

namespace PositiveNumeral

theorem not_dashed (n : PositiveNumeral) (t : Text) : n.text ≠ Flag.dash :: t := by
  intro h
  have hn := n.parse?_text
  rw [h] at hn
  have := Numeral.nonpos_of_parse?_dash hn
  have := n.value_pos
  omega

theorem roleOf_text (n : PositiveNumeral) : Argument.roleOf n.text = .ok .operand := by
  cases ht : n.text with
  | nil => rfl
  | cons c rest =>
    have hc : c ≠ Flag.dash := fun hc => n.not_dashed rest (by rw [ht, hc])
    rw [Argument.roleOf, if_pos hc]

theorem value?_text (n : PositiveNumeral) :
    Invocation.value? n.text = some (.number n.value) := by
  have hn : n.text ≠ Argument.doubleDash := n.not_dashed [Flag.dash]
  rw [Invocation.value?, if_neg hn, n.parse?_text]
  rfl

end PositiveNumeral

namespace Argument

theorem classify_cons {t : Text} {role : Role} (ht : t ≠ doubleDash) (hr : roleOf t = .ok role)
    (ts : List Text) : classify (t :: ts) = (classify ts).map (⟨t, role⟩ :: ·) := by
  rw [classify, if_neg ht, hr]
  simp only [bind, Except.bind]
  cases classify ts <;> rfl

theorem classify_separator (ts : List Text) :
    classify (doubleDash :: ts) = .ok (⟨doubleDash, .separator⟩ :: ts.map (⟨·, .operand⟩)) := by
  rw [classify, if_pos rfl]

theorem classify_numeral (n : PositiveNumeral) (ts : List Text) :
    classify (n.text :: ts) = (classify ts).map (⟨n.text, .operand⟩ :: ·) :=
  classify_cons (n.not_dashed [Flag.dash]) n.roleOf_text ts

theorem classify_choice (c : Choice) (ts : List Text) :
    classify (c.arguments ++ ts) = (classify ts).map (c.roles ++ ·) := by
  cases c with
  | strict => exact classify_cons (by decide) (by rfl) ts
  | verbose => exact classify_cons (by decide) (by rfl) ts
  | tapeSize n =>
    refine (classify_cons (by decide) (by rfl) (n.text :: ts)).trans ?_
    rw [classify_numeral]
    cases classify ts <;> rfl
  | programMax n =>
    refine (classify_cons (by decide) (by rfl) (n.text :: ts)).trans ?_
    rw [classify_numeral]
    cases classify ts <;> rfl

theorem classify_choices (choices : List Choice) (ts : List Text) :
    classify (choices.flatMap Choice.arguments ++ ts) =
      (classify ts).map (choices.flatMap Choice.roles ++ ·) := by
  induction choices with
  | nil =>
    simp only [List.flatMap_nil, List.nil_append]
    cases classify ts <;> rfl
  | cons c choices ih =>
    rw [List.flatMap_cons, List.append_assoc, classify_choice, ih]
    cases classify ts with
    | error e => rfl
    | ok arguments => simp [Except.map]

end Argument

namespace Invocation

variable {i j : Invocation} {a : Argument}

theorem consume_cons (h : ∀ following, i.take a following = .ok (j, false))
    (rest : List Argument) : consume (a :: rest) i = consume rest j := by
  cases rest with
  | nil =>
    change (i.take a none).map Prod.fst = .ok j
    rw [h]
    rfl
  | cons b rest => rw [consume, h]

theorem consume_choice (c : Choice) (rest : List Argument) (i : Invocation) :
    consume (c.roles ++ rest) i = consume rest (c.apply i) := by
  cases c with
  | strict => exact consume_cons (fun _ => rfl) rest
  | verbose => exact consume_cons (fun _ => rfl) rest
  | tapeSize n =>
    simp only [Choice.roles, List.cons_append, List.nil_append, consume, take, assign,
      n.value?_text]
    rfl
  | programMax n =>
    simp only [Choice.roles, List.cons_append, List.nil_append, consume, take, assign,
      n.value?_text]
    rfl

/-- What options alone ask for. -/
def ofChoices (choices : List Choice) : Invocation := choices.foldl Choice.apply {}

theorem consume_choices (choices : List Choice) (rest : List Argument) (i : Invocation) :
    consume (choices.flatMap Choice.roles ++ rest) i =
      consume rest (choices.foldl Choice.apply i) := by
  induction choices generalizing i with
  | nil => rfl
  | cons c choices ih =>
    rw [List.flatMap_cons, List.append_assoc, consume_choice, ih, List.foldl_cons]

/-- Options are read before what follows them. -/
theorem ofArguments_choices (choices : List Choice) {ts : List Text} {arguments : List Argument}
    (h : Argument.classify ts = .ok arguments) :
    ofArguments (choices.flatMap Choice.arguments ++ ts) =
      (consume arguments (ofChoices choices)).bind adopt := by
  rw [ofArguments, Argument.classify_choices, h]
  exact congrArg (Except.bind · adopt) (consume_choices choices arguments {})

/-- Only options were read, and a limit that is set is a positive number. -/
structure OnlyOptions (i : Invocation) : Prop where
  program_eq : i.program = none
  placed_eq : i.placed = false
  extras_eq : i.extras = []
  tapeSize_pos : ∀ v ∈ i.tapeSize, ∃ n, v = .number n ∧ 0 < n
  programMax_pos : ∀ v ∈ i.programMax, ∃ n, v = .number n ∧ 0 < n

theorem OnlyOptions.apply (h : i.OnlyOptions) (c : Choice) : (c.apply i).OnlyOptions := by
  obtain ⟨h₁, h₂, h₃, h₄, h₅⟩ := h
  cases c with
  | strict => exact ⟨h₁, h₂, h₃, h₄, h₅⟩
  | verbose => exact ⟨h₁, h₂, h₃, h₄, h₅⟩
  | tapeSize n =>
    refine ⟨h₁, h₂, h₃, fun v hv => ⟨n.value, ?_, n.value_pos⟩, h₅⟩
    exact (Option.some.inj hv).symm
  | programMax n =>
    refine ⟨h₁, h₂, h₃, h₄, fun v hv => ⟨n.value, ?_, n.value_pos⟩⟩
    exact (Option.some.inj hv).symm

theorem onlyOptions_ofChoices (choices : List Choice) : (ofChoices choices).OnlyOptions := by
  have hfold : ∀ i : Invocation, i.OnlyOptions → (choices.foldl Choice.apply i).OnlyOptions := by
    induction choices with
    | nil => exact fun i h => h
    | cons c choices ih => exact fun i h => ih _ (h.apply c)
  exact hfold {} ⟨rfl, rfl, rfl, nofun, nofun⟩

theorem OnlyOptions.settle_eq (h : i.OnlyOptions) {s : Settings} (hs : s.Valid) :
    i.settle s = .ok (s.replace i.override) := by
  have hlimit : ∀ {v? : Option Value}, (∀ v ∈ v?, ∃ n, v = .number n ∧ 0 < n) →
      v? ≠ some .nothing ∧ ∀ n ∈ v?.bind Value.number?, 0 < n := by
    intro v? hv
    cases v? with
    | none => exact ⟨nofun, nofun⟩
    | some v =>
      obtain ⟨n, rfl, hn⟩ := hv v rfl
      exact ⟨nofun, fun m hm => (Option.some.inj hm) ▸ hn⟩
  obtain ⟨hp, hp'⟩ := hlimit h.programMax_pos
  obtain ⟨ht, ht'⟩ := hlimit h.tapeSize_pos
  rw [settle, if_neg hp, hs.override_eq hp' ht']
  exact if_neg ht

end Invocation

end CommandLine

end Brainfuck
