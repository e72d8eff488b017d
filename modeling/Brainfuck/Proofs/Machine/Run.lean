import Brainfuck.Machine.Execution

/-! Runs as sequences of steps. What every step keeps, every run keeps; a run that ends does so by
one last step; and its outcome does not depend on the budget. -/

namespace Brainfuck

namespace Progress

theorem outcome?_eq_none {p : Progress} : p.outcome? = none ↔ ∃ c, p = .running c := by
  cases p <;> simp [outcome?]

theorem outcome?_eq_finished {p : Progress} {c : Config} :
    p.outcome? = some ⟨none, c⟩ ↔ p = .finished c := by
  cases p <;> simp [outcome?]

theorem outcome?_eq_failed {p : Progress} {e : Error} {c : Config} :
    p.outcome? = some ⟨some e, c⟩ ↔ p = .failed e c := by
  cases p <;> simp [outcome?]

end Progress

namespace Image

variable {image : Image} {c d : Config} {m n : Nat}

theorem advance_succ_last (image : Image) (n : Nat) (c : Config) :
    image.advance (n + 1) c = (image.advance n c).andThen image.step := by
  rw [advance_add]
  congr 1
  funext d
  exact image.advance_one d

theorem advance_succ_of_ended (h : ∀ d, image.advance n c ≠ .running d) :
    image.advance (n + 1) c = image.advance n c := by
  rw [advance_succ_last]
  cases hn : image.advance n c with
  | running d => exact absurd hn (h d)
  | finished d => rfl
  | failed e d => rfl

theorem advance_trans (hm : image.advance m c = .running d) (n : Nat) :
    image.advance (m + n) c = image.advance n d := by
  rw [advance_add, hm]
  rfl

/-- An invariant of the steps is an invariant of the runs. -/
theorem advance_invariant {P : Config → Prop}
    (hstep : ∀ c c', P c → image.step c = .running c' → P c')
    (hc : P c) (h : image.advance n c = .running d) : P d := by
  induction n generalizing d with
  | zero =>
    rw [advance_zero, Progress.running.injEq] at h
    exact h ▸ hc
  | succ n ih =>
    rw [advance_succ_last] at h
    cases hn : image.advance n c with
    | running b =>
      rw [hn] at h
      exact hstep b d (ih hn) h
    | finished b => simp [hn, Progress.andThen] at h
    | failed e b => simp [hn, Progress.andThen] at h

/-- A run that has ended has one last step. -/
theorem exists_last_step {r : Progress} (h : image.advance n c = r) (hr : ∀ d, r ≠ .running d) :
    ∃ m b, m < n ∧ image.advance m c = .running b ∧ image.step b = r := by
  induction n with
  | zero => exact absurd h.symm (hr c)
  | succ n ih =>
    rw [advance_succ_last] at h
    cases hn : image.advance n c with
    | running b =>
      rw [hn] at h
      exact ⟨n, b, by omega, hn, h⟩
    | finished b =>
      rw [hn] at h
      obtain ⟨m, b', hm, hb⟩ := ih (hn.trans h)
      exact ⟨m, b', by omega, hb⟩
    | failed e b =>
      rw [hn] at h
      obtain ⟨m, b', hm, hb⟩ := ih (hn.trans h)
      exact ⟨m, b', by omega, hb⟩

theorem perform_ne_finished (image : Image) (i : Option Command) (c d : Config) :
    image.perform i c ≠ .finished d := by
  have hmove : ∀ distance, c.move distance ≠ .finished d := by
    intro distance
    simp only [Config.move]
    split <;> simp
  have hmodify : ∀ change, c.modify change ≠ .finished d := by
    intro change
    unfold Config.modify
    split <;> simp
  have hbranch : ∀ slots taken, c.branch slots taken ≠ .finished d := by
    intro slots taken
    unfold Config.branch
    repeat' split
    all_goals simp
  cases i with
  | none => simp [perform]
  | some i =>
    cases i with
    | right => exact hmove 1
    | left => exact hmove (-1)
    | increment => exact hmodify _
    | decrement => exact hmodify _
    | output =>
      simp only [perform, Config.write]
      repeat' split
      all_goals simp
    | input =>
      simp only [perform, Config.read]
      repeat' split
      all_goals simp
    | loopStart => exact hbranch _ _
    | loopEnd => exact hbranch _ _

theorem eq_of_step_finished (h : image.step c = .finished d) : d = c := by
  rw [step] at h
  split at h
  · exact (Progress.finished.inj h).symm
  · split at h
    · simp at h
    · exact absurd h (perform_ne_finished image _ _ d)

theorem exists_running_of_finished (h : image.advance n c = .finished d) :
    ∃ m < n, image.advance m c = .running d := by
  obtain ⟨m, b, hm, hb, hstep⟩ := exists_last_step h (by simp)
  exact ⟨m, hm, eq_of_step_finished hstep ▸ hb⟩

theorem outcome?_advance_add {o : Outcome} (h : (image.advance m c).outcome? = some o) (n : Nat) :
    (image.advance (m + n) c).outcome? = some o := by
  rw [advance_add]
  cases hm : image.advance m c with
  | running d => simp [hm, Progress.outcome?] at h
  | finished d => rwa [hm] at h
  | failed e d => rwa [hm] at h

/-- The outcome of a run does not depend on the number of steps allowed. -/
theorem outcome?_unique {o o' : Outcome} (h : (image.advance m c).outcome? = some o)
    (h' : (image.advance n c).outcome? = some o') : o = o' := by
  have h₁ := outcome?_advance_add h n
  have h₂ := outcome?_advance_add h' m
  rw [Nat.add_comm, h₁, Option.some_inj] at h₂
  exact h₂

end Image

namespace Execution

variable {code : Text} {t : JumpTable}

theorem start_of_resolve (h : JumpTable.resolve code = .ok t) (memory : Memory) (s : State)
    (tapeSize : Int) (input : Input) (sink : Sink) :
    start memory code none (some s) tapeSize input sink =
      .ok ⟨Image.ofTable code t, Config.start s input sink⟩ := by
  unfold start Image.ofText
  rw [h]
  rfl

theorem start_of_table (memory : Memory) (t : JumpTable) (s : State) (tapeSize : Int)
    (input : Input) (sink : Sink) :
    start memory code (some t) (some s) tapeSize input sink =
      .ok ⟨Image.ofTable code t, Config.start s input sink⟩ := rfl

theorem start_none_eq (memory : Memory) (code : Text) (tapeSize : Int) (input : Input)
    (sink : Sink) :
    start memory code none none tapeSize input sink =
      match JumpTable.resolve code with
      | .error r => .error (.rejected r)
      | .ok t => (State.new memory tapeSize).map fun s =>
          ⟨Image.ofTable code t, Config.start s input sink⟩ := by
  unfold start Image.ofText
  cases JumpTable.resolve code with
  | error r => rfl
  | ok t => cases State.new memory tapeSize <;> rfl

end Execution

end Brainfuck
