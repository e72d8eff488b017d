import Brainfuck.CommandLine.Run
import Brainfuck.Proofs.Settings.Environment

/-! Settings under overrides. Overrides are asked for one after the other, and one that fails
leaves the settings as they are. Whatever the sequence, the limits stay positive, and each setting
is what the last successful override of it says, or else the environment, or else its default. -/

namespace Brainfuck

namespace Settings

/-- The settings after an override was asked for; one that fails leaves them as they are. -/
def amend (s : Settings) (o : Override) : Settings :=
  match s.override o with
  | .ok s' => s'
  | .error _ => s

def amendAll (s : Settings) (os : List Override) : Settings := os.foldl amend s

/-- The overrides that succeed when their turn comes. -/
def accepted : Settings → List Override → List Override
  | _, [] => []
  | s, o :: os =>
    match s.override o with
    | .ok s' => o :: accepted s' os
    | .error _ => accepted s os

variable {s s' : Settings} {o : Override} {e : Error}

theorem override_eq_ok_iff : s.override o = .ok s' ↔ s' = s.replace o ∧ (s.replace o).Valid :=
  validate_eq_ok_iff

/-- A limit that an override sets and that is not positive is the reason why it fails. -/
theorem Valid.of_override_error (h : s.Valid) (he : s.override o = .error e) :
    (∃ n ∈ o.programMax, n ≤ 0 ∧ e = .notPositive .programMax n) ∨
      ∃ n ∈ o.tapeSize, n ≤ 0 ∧ e = .notPositive .tapeSize n := by
  have hp := h.programMax_pos
  have ht := h.tapeSize_pos
  rw [override, validate] at he
  split_ifs at he with h₁ h₂
  · obtain rfl := Except.error.inj he
    cases hn : o.programMax with
    | none =>
      simp only [hn, Option.getD_none] at h₁
      omega
    | some n =>
      simp only [hn, Option.getD_some] at h₁ ⊢
      exact .inl ⟨n, rfl, h₁, rfl⟩
  · obtain rfl := Except.error.inj he
    cases hn : o.tapeSize with
    | none =>
      simp only [hn, Option.getD_none] at h₂
      omega
    | some n =>
      simp only [hn, Option.getD_some] at h₂ ⊢
      exact .inr ⟨n, rfl, h₂, rfl⟩

/-- An override of valid settings fails if it sets a limit that is not positive, and only then. -/
theorem Valid.override_error_iff (h : s.Valid) : (∃ e, s.override o = .error e) ↔
    (∃ n ∈ o.programMax, n ≤ 0) ∨ ∃ n ∈ o.tapeSize, n ≤ 0 := by
  constructor
  · rintro ⟨e, he⟩
    obtain ⟨n, hn, h₀, -⟩ | ⟨n, hn, h₀, -⟩ := h.of_override_error he
    · exact .inl ⟨n, hn, h₀⟩
    · exact .inr ⟨n, hn, h₀⟩
  · intro hn
    cases ho : s.override o with
    | error e => exact ⟨e, rfl⟩
    | ok s' =>
      obtain ⟨-, hp, ht⟩ := override_eq_ok_iff.mp ho
      rcases hn with ⟨n, hn, h₀⟩ | ⟨n, hn, h₀⟩
      · simp only [replace, Option.mem_def.mp hn, Option.getD_some] at hp
        omega
      · simp only [replace, Option.mem_def.mp hn, Option.getD_some] at ht
        omega

theorem Valid.amend (h : s.Valid) (o : Override) : (s.amend o).Valid := by
  rw [Settings.amend]
  cases ho : s.override o with
  | error e => exact h
  | ok s' =>
    obtain ⟨rfl, hv⟩ := override_eq_ok_iff.mp ho
    exact hv

theorem Valid.amendAll (h : s.Valid) (os : List Override) : (s.amendAll os).Valid := by
  induction os generalizing s with
  | nil => exact h
  | cons o os ih => exact ih (h.amend o)

/-- A setting that every override replaces by what it gives for it, if anything, is what the last
successful override says. -/
theorem get_amendAll {α : Type} {get : Settings → α} {given : Override → Option α}
    (hget : ∀ s o, get (s.replace o) = (given o).getD (get s)) (s : Settings) (os : List Override) :
    get (s.amendAll os) = (((s.accepted os).filterMap given).getLast?).getD (get s) := by
  induction os generalizing s with
  | nil => rfl
  | cons o os ih =>
    rw [amendAll, List.foldl_cons, amend, accepted]
    cases ho : s.override o with
    | error e => exact ih s
    | ok s' =>
      obtain ⟨rfl, -⟩ := override_eq_ok_iff.mp ho
      refine (ih (s.replace o)).trans ?_
      rw [hget]
      cases hg : given o with
      | none => simp [hg]
      | some a => simp [hg, List.getLast?_cons]

/-- Neither the collector nor the tape that the settings ask for is refused for its limit. -/
structure Usable (s : Settings) : Prop where
  collector : ∃ c, Collector.new s.programMax s.strict = .ok c
  tape : ∀ memory e, State.new memory s.tapeSize = .error e → e = .tapeTooLarge ∨ e = .outOfMemory

theorem Valid.usable (h : s.Valid) : s.Usable where
  collector := ⟨_, if_pos h.programMax_pos⟩
  tape _ _ := State.eq_of_new_error h.tapeSize_pos

/-- What the settings are that start as `first` and are overridden one by one. -/
structure Follows (env : Environment) (first : Settings) (os : List Override) : Prop where
  valid : (first.amendAll os).Valid
  programMax_eq : (first.amendAll os).programMax =
    (((first.accepted os).filterMap Override.programMax).getLast?).getD
      ((env.number? .programMax).getD 65536)
  tapeSize_eq : (first.amendAll os).tapeSize =
    (((first.accepted os).filterMap Override.tapeSize).getLast?).getD
      ((env.number? .tapeSize).getD 30000)
  strict_eq : (first.amendAll os).strict =
    (((first.accepted os).filterMap Override.strict).getLast?).getD
      ((env.switch? .strict).getD false)
  /-- The next override fails if a limit that it sets is not positive, whatever else it sets. -/
  refused_iff : ∀ o, (∃ e, (first.amendAll os).override o = .error e) ↔
    (∃ n ∈ o.programMax, n ≤ 0) ∨ ∃ n ∈ o.tapeSize, n ≤ 0
  refused_eq : ∀ o e, (first.amendAll os).override o = .error e →
    ∃ limit n, e = .notPositive limit n ∧ n ≤ 0
  usable : (first.amendAll os).Usable

variable {env : Environment}

theorem follows_of_ofEnvironment {first : Settings} (h : ofEnvironment env = .ok first)
    (os : List Override) : Follows env first os := by
  obtain ⟨hp, ht, hs, hv⟩ := ofEnvironment_eq_ok_iff.mp h
  have hvalid := hv.amendAll os
  refine ⟨hvalid, ?_, ?_, ?_, fun o => hvalid.override_error_iff, fun o e he => ?_, hvalid.usable⟩
  · rw [← Environment.eq_number_of_integer hp]
    exact get_amendAll (fun _ _ => rfl) first os
  · rw [← Environment.eq_number_of_integer ht]
    exact get_amendAll (fun _ _ => rfl) first os
  · rw [← Environment.isOn_eq, ← hs]
    exact get_amendAll (fun _ _ => rfl) first os
  · obtain ⟨n, -, h₀, rfl⟩ | ⟨n, -, h₀, rfl⟩ := hvalid.of_override_error he
    · exact ⟨_, n, rfl, h₀⟩
    · exact ⟨_, n, rfl, h₀⟩

theorem override_of_settle {i : CommandLine.Invocation} (h : i.settle s = .ok s') :
    s.override i.override = .ok s' := by
  rw [CommandLine.Invocation.settle] at h
  cases ho : s.override i.override with
  | error e =>
    simp only [ho] at h
    split_ifs at h
  | ok settled =>
    simp only [ho] at h
    split_ifs at h
    rw [Except.ok.inj h]

/-- The command line overrides the settings of the environment once. -/
theorem override_of_plan {arguments : List Text} {i : CommandLine.Invocation}
    (h : CommandLine.plan arguments env = .ok (i, s)) :
    ∃ first, ofEnvironment env = .ok first ∧ first.override i.override = .ok s := by
  rw [CommandLine.plan] at h
  cases hi : CommandLine.Invocation.ofArguments arguments with
  | error stop => simp [hi] at h
  | ok j =>
    cases hfirst : ofEnvironment env with
    | error e => simp [hi, hfirst] at h
    | ok first =>
      simp only [hi, hfirst] at h
      cases hs : j.settle first with
      | error stop => simp [hs, Except.map] at h
      | ok settled =>
        rw [hs] at h
        obtain ⟨rfl, rfl⟩ := Prod.mk.inj (Except.ok.inj h)
        exact ⟨first, rfl, override_of_settle hs⟩

/-- The environment gives settings if it admits both limits, every sequence of overrides keeps
them valid and in order of precedence, and so does the command line. -/
theorem overrides_follow (env : Environment) :
    ((∃ first, ofEnvironment env = .ok first) ↔
      env.Admits .programMax ∧ env.Admits .tapeSize) ∧
    (∀ first, ofEnvironment env = .ok first → ∀ os, Follows env first os) ∧
    ∀ arguments i s, CommandLine.plan arguments env = .ok (i, s) →
      s.Usable ∧ ∃ first, ofEnvironment env = .ok first ∧ s = first.amendAll [i.override] := by
  refine ⟨exists_ofEnvironment_iff, fun first => follows_of_ofEnvironment, ?_⟩
  intro arguments i s h
  obtain ⟨first, hfirst, ho⟩ := override_of_plan h
  have hs : s = first.amendAll [i.override] := by
    rw [amendAll, List.foldl_cons, List.foldl_nil, amend, ho]
  exact ⟨hs ▸ (follows_of_ofEnvironment hfirst [i.override]).usable, first, hfirst, hs⟩

/-- The environment sets a limit and the switch; of three overrides the second fails, although
one of the limits that it sets is positive. -/
theorem overrides_follow_refused_between :
    let env : Environment := fun
      | .programMax => some (Text.ofString " 1_0 ")
      | .tapeSize => some (Text.ofString "\t")
      | .strict => some (Text.ofString "Yes")
    let first : Settings := ⟨10, 30000, true⟩
    let os : List Override := [{ tapeSize := some 8 }, { programMax := some 5, tapeSize := some 0 },
      { strict := some false }]
    ofEnvironment env = .ok first ∧ (first.amendAll os).programMax = 10 ∧
      (first.amendAll os).tapeSize = 8 ∧ (first.amendAll os).strict = false ∧
      ∃ i s, CommandLine.plan ["--tape-size", "3"] env = .ok (i, s) ∧ s.Usable := by
  intro env first os
  have hfirst : ofEnvironment env = .ok first := by decide
  obtain ⟨-, hfollows, hplan⟩ := overrides_follow env
  obtain ⟨-, hp, ht, hs, -⟩ := hfollows first hfirst os
  refine ⟨hfirst, hp.trans (by decide), ht.trans (by decide), hs.trans (by decide), ?_⟩
  exact ⟨_, ⟨10, 3, true⟩, rfl, (hplan ["--tape-size", "3"] _ _ rfl).1⟩

end Settings

end Brainfuck
