import Brainfuck.Proofs.Settings.Valid
import Brainfuck.Proofs.Text.Numeral

/-! What the variables of the environment say. A limit is read by the grammar of numerals, and a
variable that is unset or blank leaves it at its default. The environment gives settings if every
limit it sets is a positive number. -/

namespace Brainfuck

namespace Environment

variable {env : Environment} {name : Variable} {raw : Text} {default v : Int}

theorem integer_of_none (h : env name = none) (default : Int) :
    env.integer name default = .ok default := by
  rw [integer, h]

theorem integer_of_isBlank (h : env name = some raw) (hb : raw.isBlank = true) (default : Int) :
    env.integer name default = .ok default := by
  rw [integer, h]
  exact if_pos hb

theorem integer_of_denotes (h : env name = some raw) (hv : Numeral.Denotes raw v) (default : Int) :
    env.integer name default = .ok v := by
  simp [integer, h, hv.not_isBlank, Numeral.parse?_eq_some_iff.mpr hv]

theorem integer_of_not_denotes (h : env name = some raw) (hb : raw.isBlank = false)
    (hv : ¬ ∃ v, Numeral.Denotes raw v) (default : Int) :
    env.integer name default = .error (.notAnInteger name raw) := by
  have hparse : Numeral.parse? raw = none :=
    Option.eq_none_iff_forall_ne_some.mpr fun v h => hv ⟨v, Numeral.parse?_eq_some_iff.mp h⟩
  simp [integer, h, hb, hparse]

/-- How the text of a variable is read as an integer. -/
structure Interprets (name : Variable) (default : Int) (raw : Text) (answer : Except Error Int) :
    Prop where
  /-- Nothing but whitespace, information separators included, leaves the default. -/
  blank : (∀ c ∈ raw, c.isWideSpace = true) → answer = .ok default
  number : (∃ c ∈ raw, c.isWideSpace = false) → ∀ v, answer = .ok v ↔ Numeral.Denotes raw v
  refused : (∃ c ∈ raw, c.isWideSpace = false) → (¬ ∃ v, Numeral.Denotes raw v) →
    answer = .error (.notAnInteger name raw)
  /-- The message of a refusal starts with the name of the variable. -/
  named : name.name <+: (Error.notAnInteger name raw).message
  respelled : ∀ n, Numeral.Respells n raw → answer = .ok n

/-- A limit is read by one grammar, and every integer is written in it. -/
theorem interprets_integer (h : env name = some raw) (default : Int) :
    Interprets name default raw (env.integer name default) where
  blank hb := integer_of_isBlank h (List.all_eq_true.mpr hb) default
  number hc v := by
    constructor
    · intro hv
      obtain ⟨c, hc, hs⟩ := hc
      by_cases hd : ∃ w, Numeral.Denotes raw w
      · obtain ⟨w, hw⟩ := hd
        rw [integer_of_denotes h hw] at hv
        exact Except.ok.inj hv ▸ hw
      · have hb : raw.isBlank = false := List.all_eq_false.mpr ⟨c, hc, by simp [hs]⟩
        rw [integer_of_not_denotes h hb hd] at hv
        cases hv
    · exact fun hv => integer_of_denotes h hv default
  refused hc hv := by
    obtain ⟨c, hc, hs⟩ := hc
    exact integer_of_not_denotes h (List.all_eq_false.mpr ⟨c, hc, by simp [hs]⟩) hv default
  named := by
    rw [Error.message, List.append_assoc]
    exact List.prefix_append _ _
  respelled n hn := integer_of_denotes h hn.denotes default

/-- An information separator is blank but surrounds no numeral; a negative number with a zero and
an underscore between tab and no-break space; two underscores in a row. -/
theorem interprets_integer_forms :
    integer (fun _ => some (Text.ofString "\x1c ")) .tapeSize 7 = .ok 7 ∧
    integer (fun _ => some (Text.ofString "\t-0_42\u00a0")) .tapeSize 7 = .ok (-42) ∧
    integer (fun _ => some (Text.ofString "\x1c42")) .tapeSize 7 =
      .error (.notAnInteger .tapeSize (Text.ofString "\x1c42")) ∧
    integer (fun _ => some (Text.ofString "1__2")) .tapeSize 7 =
      .error (.notAnInteger .tapeSize (Text.ofString "1__2")) := by
  have hrefused : ∀ {t : Text}, Numeral.parse? t = none → ¬ ∃ v, Numeral.Denotes t v := by
    rintro t h ⟨v, hv⟩
    rw [Numeral.parse?_eq_some_iff.mpr hv] at h
    cases h
  have hform : Numeral.Respells (-42) (Text.ofString "\t-0_42\u00a0") :=
    @Numeral.Respells.mk (-42) (Text.ofString "\t") (Text.ofString "-") (Text.ofString "0")
      (Text.ofString "42") (Text.ofString "\u00a0") (-1) [Text.ofString "0", Text.ofString "42"]
      (by decide) .minus (by decide) (by decide) (by decide) (by decide) (by decide) (by decide)
      (by decide)
  refine ⟨(interprets_integer rfl 7).blank (by decide),
    (interprets_integer rfl 7).respelled _ hform, ?_, ?_⟩
  · exact (interprets_integer rfl 7).refused (by decide) (hrefused (by decide))
  · exact (interprets_integer rfl 7).refused (by decide) (hrefused (by decide))

/-! ### Settings from the environment -/

/-- The number that a variable holds, if it is set to one. -/
def number? (env : Environment) (name : Variable) : Option Int :=
  (env name).bind Numeral.parse?

/-- Whether a variable switches something on, if it is set. -/
def switch? (env : Environment) (name : Variable) : Option Bool :=
  (env name).map fun raw => affirmatives.contains ((raw.trim CodePoint.isWideSpace).map lower)

/-- A variable that is set is blank or holds a positive number. -/
def Admits (env : Environment) (name : Variable) : Prop :=
  ∀ raw ∈ env name, raw.isBlank = true ∨ ∃ n, Numeral.parse? raw = some n ∧ 0 < n

theorem isOn_eq (env : Environment) (name : Variable) :
    env.isOn name = (env.switch? name).getD false := by
  rw [isOn, switch?]
  cases env name with
  | none => decide
  | some raw => rfl

theorem parse?_of_isBlank (hb : raw.isBlank = true) : Numeral.parse? raw = none := by
  refine Option.eq_none_iff_forall_ne_some.mpr fun n hn => ?_
  have := (Numeral.parse?_eq_some_iff.mp hn).not_isBlank
  simp [hb] at this

theorem eq_number_of_integer (h : env.integer name default = .ok v) :
    v = (env.number? name).getD default := by
  rw [number?]
  cases hraw : env name with
  | none =>
    rw [integer_of_none hraw] at h
    exact (Except.ok.inj h).symm
  | some raw =>
    cases hb : raw.isBlank with
    | true =>
      rw [integer_of_isBlank hraw hb] at h
      rw [Option.bind_some, parse?_of_isBlank hb]
      exact (Except.ok.inj h).symm
    | false =>
      cases hn : Numeral.parse? raw with
      | none => simp [integer, hraw, hb, hn] at h
      | some n =>
        rw [integer_of_denotes hraw (Numeral.parse?_eq_some_iff.mp hn)] at h
        rw [Option.bind_some, hn]
        exact (Except.ok.inj h).symm

/-- With a positive default, the variables that are admitted are those that give positive limits. -/
theorem admits_iff (hd : 0 < default) :
    env.Admits name ↔ ∃ v, env.integer name default = .ok v ∧ 0 < v := by
  cases hraw : env name with
  | none => exact iff_of_true (by simp [Admits, hraw]) ⟨default, integer_of_none hraw default, hd⟩
  | some raw =>
    cases hb : raw.isBlank with
    | true =>
      exact iff_of_true (by simp [Admits, hraw, hb])
        ⟨default, integer_of_isBlank hraw hb default, hd⟩
    | false =>
      cases hn : Numeral.parse? raw with
      | none => simp [Admits, integer, hraw, hb, hn]
      | some n => simp [Admits, integer, hraw, hb, hn]

end Environment

namespace Settings

variable {env : Environment}

theorem exists_ofEnvironment_iff :
    (∃ s, ofEnvironment env = .ok s) ↔ env.Admits .programMax ∧ env.Admits .tapeSize := by
  rw [Environment.admits_iff (show (0 : Int) < 65536 by decide),
    Environment.admits_iff (show (0 : Int) < 30000 by decide)]
  constructor
  · rintro ⟨s, hs⟩
    obtain ⟨hp, ht, -, hv⟩ := ofEnvironment_eq_ok_iff.mp hs
    exact ⟨⟨_, hp, hv.programMax_pos⟩, _, ht, hv.tapeSize_pos⟩
  · rintro ⟨⟨p, hp, hp₀⟩, t, ht, ht₀⟩
    exact ⟨⟨p, t, env.isOn .strict⟩, ofEnvironment_eq_ok_iff.mpr ⟨hp, ht, rfl, hp₀, ht₀⟩⟩

end Settings

end Brainfuck
