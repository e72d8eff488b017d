import Brainfuck.Settings
import Mathlib.Tactic.SplitIfs

/-! Settings with positive limits. Validation lets these through as they are and no others, so the
environment and every override give settings with positive limits. -/

namespace Brainfuck.Settings

structure Valid (s : Settings) : Prop where
  programMax_pos : 0 < s.programMax
  tapeSize_pos : 0 < s.tapeSize

variable {s s' : Settings}

theorem validate_eq_ok_iff : s.validate = .ok s' ↔ s' = s ∧ s.Valid := by
  rw [validate]
  split_ifs with h₁ h₂
  · constructor
    · nofun
    · rintro ⟨-, hp, -⟩
      omega
  · constructor
    · nofun
    · rintro ⟨-, -, ht⟩
      omega
  · constructor
    · intro h
      exact ⟨(Except.ok.inj h).symm, by omega, by omega⟩
    · rintro ⟨rfl, -⟩
      rfl

theorem Valid.validate_eq (h : s.Valid) : s.validate = .ok s :=
  validate_eq_ok_iff.mpr ⟨rfl, h⟩

theorem ofEnvironment_eq_ok_iff {env : Environment} : ofEnvironment env = .ok s ↔
    env.integer .programMax 65536 = .ok s.programMax ∧
      env.integer .tapeSize 30000 = .ok s.tapeSize ∧ s.strict = env.isOn .strict ∧ s.Valid := by
  have heq : ofEnvironment env = (env.integer .programMax 65536).bind fun programMax =>
      (env.integer .tapeSize 30000).bind fun tapeSize =>
        validate ⟨programMax, tapeSize, env.isOn .strict⟩ := rfl
  rw [heq]
  cases env.integer .programMax 65536 with
  | error e => simp [Except.bind]
  | ok programMax =>
    cases env.integer .tapeSize 30000 with
    | error e => simp [Except.bind]
    | ok tapeSize =>
      simp only [Except.bind, validate_eq_ok_iff, Except.ok.injEq]
      constructor
      · rintro ⟨rfl, hv⟩
        exact ⟨rfl, rfl, rfl, hv⟩
      · rintro ⟨rfl, rfl, hs, hv⟩
        rw [← hs]
        exact ⟨rfl, hv⟩

theorem valid_of_ofEnvironment {env : Environment} (h : ofEnvironment env = .ok s) : s.Valid :=
  (ofEnvironment_eq_ok_iff.mp h).2.2.2

/-- The settings with those that an override gives in their place, valid or not. -/
def replace (s : Settings) (o : Override) : Settings where
  programMax := o.programMax.getD s.programMax
  tapeSize := o.tapeSize.getD s.tapeSize
  strict := o.strict.getD s.strict

/-- Positive numbers in place of positive limits are valid again. -/
theorem Valid.override_eq (h : s.Valid) {o : Override} (hp : ∀ n ∈ o.programMax, 0 < n)
    (ht : ∀ n ∈ o.tapeSize, 0 < n) : s.override o = .ok (s.replace o) := by
  refine Valid.validate_eq (s := s.replace o) ⟨?_, ?_⟩
  · rw [replace]
    cases hn : o.programMax with
    | none => exact h.programMax_pos
    | some n => exact hp n hn
  · rw [replace]
    cases hn : o.tapeSize with
    | none => exact h.tapeSize_pos
    | some n => exact ht n hn

end Brainfuck.Settings
