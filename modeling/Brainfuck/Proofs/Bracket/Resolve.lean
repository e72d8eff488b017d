import Brainfuck.JumpTable
import Brainfuck.Proofs.Bracket.Height

/-! What the scan for brackets computes. Before each position the pending loops are the open ones,
the innermost first and one for each unit of height, and the table holds exactly the loops that
have ended. The verdict at the end follows: a table, the first loop end without a loop, or the
innermost loop without an end. -/

namespace Brainfuck.JumpTable

/-- The table holds exactly the loops of `code` that end before position `n`. -/
structure Holds (t : JumpTable) (code : Text) (n : Nat) : Prop where
  ends_size : t.ends.size = code.length
  starts_size : t.starts.size = code.length
  ends_iff : ∀ (i : Nat) (x : Int),
    t.ends[i]? = some (some x) ↔ ∃ j < n, x = j ∧ code.Encloses i j
  starts_iff : ∀ (j : Nat) (x : Int),
    t.starts[j]? = some (some x) ↔ j < n ∧ ∃ i : Nat, x = i ∧ code.Encloses i j

theorem holds_empty (code : Text) : (empty code.length).Holds code 0 := by
  refine ⟨by simp [empty], by simp [empty], fun i x => ?_, fun j x => ?_⟩
  · simp [empty, Array.getElem?_replicate]
  · simp [empty, Array.getElem?_replicate]

/-- The pending loops are open before `n`, each at the height of those around it. -/
def Pending (code : Text) (n : Nat) : List Nat → Prop
  | [] => True
  | s :: outer => code.OpenAt n s ∧ code.height s = outer.length ∧ Pending code n outer

/-- The invariant of the scan before position `n`. -/
structure Scanned (code : Text) (n : Nat) (pending : List Nat) (t : JumpTable) : Prop where
  height_nonneg : ∀ k ≤ n, 0 ≤ code.height k
  height_eq : code.height n = pending.length
  pending : Pending code n pending
  holds : t.Holds code n

variable {code rest : Text} {n s : Nat} {pending outer : List Nat} {t : JumpTable} {c : CodePoint}

theorem Pending.succ (h : Pending code n pending) (hh : pending.length ≤ code.height (n + 1)) :
    Pending code (n + 1) pending := by
  induction pending with
  | nil => trivial
  | cons s outer ih =>
    obtain ⟨ho, hs, hp⟩ := h
    simp only [List.length_cons] at hh
    refine ⟨⟨by have := ho.lt; omega, ho.startsAt, fun k h₁ h₂ => ?_⟩, hs, ih hp (by omega)⟩
    rcases Nat.lt_or_ge n k with hk | hk
    · obtain rfl : k = n + 1 := by omega
      omega
    · exact ho.above k h₁ hk

theorem Holds.ends_of_encloses (h : t.Holds code code.length) (he : code.Encloses s n) :
    t.ends[s]? = some (some (n : Int)) :=
  (h.ends_iff s n).mpr ⟨n, he.endsAt.lt, rfl, he⟩

theorem Holds.starts_of_encloses (h : t.Holds code code.length) (he : code.Encloses s n) :
    t.starts[n]? = some (some (s : Int)) :=
  (h.starts_iff n s).mpr ⟨he.endsAt.lt, s, rfl, he⟩

theorem Holds.succ_of_not_endsAt (h : t.Holds code n) (he : ¬ code.EndsAt n) :
    t.Holds code (n + 1) := by
  refine ⟨h.ends_size, h.starts_size, fun i x => ?_, fun j x => ?_⟩
  · rw [h.ends_iff]
    constructor
    · rintro ⟨j, hj, hx⟩
      exact ⟨j, by omega, hx⟩
    · rintro ⟨j, hj, hx, hej⟩
      have : j ≠ n := fun hjn => he (hjn ▸ hej.endsAt)
      exact ⟨j, by omega, hx, hej⟩
  · rw [h.starts_iff]
    constructor
    · rintro ⟨hj, hx⟩
      exact ⟨by omega, hx⟩
    · rintro ⟨hj, i, hx, hej⟩
      have : j ≠ n := fun hjn => he (hjn ▸ hej.endsAt)
      exact ⟨by omega, i, hx, hej⟩

/-- A loop end closes the innermost open loop. -/
theorem Holds.link (h : t.Holds code n) (he : code.Encloses s n) :
    (t.link s n).Holds code (n + 1) := by
  have hs : s < t.ends.size := h.ends_size ▸ he.startsAt.lt
  have hn : n < t.starts.size := h.starts_size ▸ he.endsAt.lt
  refine ⟨by simp [JumpTable.link, h.ends_size], by simp [JumpTable.link, h.starts_size],
    fun i x => ?_, fun j x => ?_⟩
  · simp only [JumpTable.link, Array.getElem?_setIfInBounds]
    by_cases hi : s = i
    · subst hi
      rw [if_pos rfl, if_pos hs, Option.some_inj, Option.some_inj]
      constructor
      · rintro rfl
        exact ⟨n, by omega, rfl, he⟩
      · rintro ⟨j, -, rfl, hj⟩
        rw [he.end_unique hj]
    · rw [if_neg hi, h.ends_iff]
      constructor
      · rintro ⟨j, hj, hx⟩
        exact ⟨j, by omega, hx⟩
      · rintro ⟨j, hj, hx, hej⟩
        have : j ≠ n := fun hjn => hi (he.start_unique (hjn ▸ hej))
        exact ⟨j, by omega, hx, hej⟩
  · simp only [JumpTable.link, Array.getElem?_setIfInBounds]
    by_cases hj : n = j
    · subst hj
      rw [if_pos rfl, if_pos hn, Option.some_inj, Option.some_inj]
      constructor
      · rintro rfl
        exact ⟨by omega, s, rfl, he⟩
      · rintro ⟨-, i, rfl, hi⟩
        rw [he.start_unique hi]
    · rw [if_neg hj, h.starts_iff]
      constructor
      · rintro ⟨hlt, hx⟩
        exact ⟨by omega, hx⟩
      · rintro ⟨hlt, hx⟩
        exact ⟨by omega, hx⟩

/-! ### One position of the scan -/

theorem scan_start (hc : Command.ofCodePoint? c = some .loopStart) :
    scan code (c :: rest) n pending t = scan code rest (n + 1) (n :: pending) t := by
  simp only [scan, hc]

theorem scan_end_nil (hc : Command.ofCodePoint? c = some .loopEnd) :
    scan code (c :: rest) n [] t = .error (.unopenedLoop code n) := by
  simp only [scan, hc]

theorem scan_end_cons (hc : Command.ofCodePoint? c = some .loopEnd) :
    scan code (c :: rest) n (s :: outer) t = scan code rest (n + 1) outer (t.link s n) := by
  simp only [scan, hc]

theorem scan_other (hs : Command.ofCodePoint? c ≠ some .loopStart)
    (he : Command.ofCodePoint? c ≠ some .loopEnd) :
    scan code (c :: rest) n pending t = scan code rest (n + 1) pending t := by
  rw [scan.eq_def]
  split <;> simp_all

theorem Scanned.height_nonneg_succ (h : Scanned code n pending t)
    (hn : 0 ≤ code.height (n + 1)) : ∀ k ≤ n + 1, 0 ≤ code.height k := by
  intro k hk
  rcases Nat.lt_or_ge n k with h₁ | h₁
  · obtain rfl : k = n + 1 := by omega
    exact hn
  · exact h.height_nonneg k h₁

theorem Scanned.start (h : Scanned code n pending t) (hs : code.StartsAt n) :
    Scanned code (n + 1) (n :: pending) t := by
  have hh := Text.height_succ_of_startsAt hs
  have hn := h.height_eq
  have ho : code.OpenAt (n + 1) n := by
    refine ⟨by omega, hs, fun k h₁ h₂ => ?_⟩
    obtain rfl : k = n + 1 := by omega
    omega
  refine ⟨h.height_nonneg_succ (by omega), ?_, ⟨ho, hn, h.pending.succ (by omega)⟩,
    h.holds.succ_of_not_endsAt hs.not_endsAt⟩
  rw [hh, hn, List.length_cons]
  rfl

theorem Scanned.close (h : Scanned code n (s :: outer) t) (he : code.EndsAt n) :
    Scanned code (n + 1) outer (t.link s n) := by
  have hh := Text.height_succ_of_endsAt he
  have hn := h.height_eq
  obtain ⟨ho, hs, hp⟩ := h.pending
  simp only [List.length_cons] at hn
  have hs' : code.Encloses s n := ⟨ho.lt, ho.startsAt, ho.above, by omega⟩
  exact ⟨h.height_nonneg_succ (by omega), by omega, hp.succ (by omega), h.holds.link hs'⟩

theorem Scanned.other (h : Scanned code n pending t) (hs : ¬ code.StartsAt n)
    (he : ¬ code.EndsAt n) : Scanned code (n + 1) pending t := by
  have hh := Text.height_succ_of_not hs he
  have hn := h.height_eq
  exact ⟨h.height_nonneg_succ (by omega), by omega, h.pending.succ (by omega),
    h.holds.succ_of_not_endsAt he⟩

/-! ### The whole scan -/

/-- What the answer to a program says about its brackets. -/
def Verdict (code : Text) : Except Rejection JumpTable → Prop
  | .ok t => code.Balanced ∧ t.Holds code code.length
  | .error (.unclosedLoop c position unclosed) =>
    c = code ∧ (∀ k ≤ code.length, 0 ≤ code.height k) ∧
      unclosed = code.height code.length ∧
      ∃ s : Nat, position = s ∧ code.OpenAt code.length s ∧ code.height s + 1 = unclosed
  | .error (.unopenedLoop c position) =>
    c = code ∧ ∃ n : Nat, position = n ∧ code.EndsAt n ∧
      (∀ k ≤ n, 0 ≤ code.height k) ∧ code.height n = 0
  | .error (.tooLong _) => False

theorem Scanned.verdict (h : Scanned code n pending t) (hr : code.drop n = rest) :
    Verdict code (scan code rest n pending t) := by
  induction rest generalizing n pending t with
  | nil =>
    -- beyond the end nothing changes any more, so the invariant speaks about the whole text
    have hn : code.length ≤ n := List.drop_eq_nil_iff.mp hr
    have hl : code.height n = code.height code.length := Text.height_of_length_le hn
    have h₀ : ∀ k ≤ code.length, 0 ≤ code.height k := fun k hk => h.height_nonneg k (by omega)
    have hh := h.height_eq
    cases pending with
    | nil =>
      refine ⟨Text.balanced_iff_height.mpr ⟨h₀, by simp_all⟩, h.holds.ends_size,
        h.holds.starts_size, fun i x => ?_, fun j x => ?_⟩
      · rw [h.holds.ends_iff]
        constructor
        · rintro ⟨j, -, hx, he⟩
          exact ⟨j, he.endsAt.lt, hx, he⟩
        · rintro ⟨j, hj, hx⟩
          exact ⟨j, by omega, hx⟩
      · rw [h.holds.starts_iff]
        constructor
        · rintro ⟨-, i, hx, he⟩
          exact ⟨he.endsAt.lt, i, hx, he⟩
        · rintro ⟨hj, hx⟩
          exact ⟨by omega, hx⟩
    | cons s outer =>
      obtain ⟨ho, hs, -⟩ := h.pending
      simp only [List.length_cons] at hh
      refine ⟨rfl, h₀, by omega, s, rfl, ⟨ho.startsAt.lt, ho.startsAt, fun k h₁ h₂ => ?_⟩, ?_⟩
      · exact ho.above k h₁ (by omega)
      · omega
  | cons c rest ih =>
    obtain ⟨hc, hr'⟩ := Text.of_drop_eq_cons hr
    by_cases hs : Command.ofCodePoint? c = some .loopStart
    · rw [scan_start hs]
      exact ih (h.start ((Text.startsAt_iff hc).mpr hs)) hr'
    · by_cases he : Command.ofCodePoint? c = some .loopEnd
      · have hen := (Text.endsAt_iff hc).mpr he
        cases pending with
        | nil =>
          rw [scan_end_nil he]
          exact ⟨rfl, n, rfl, hen, h.height_nonneg, by simpa using h.height_eq⟩
        | cons s outer =>
          rw [scan_end_cons he]
          exact ih (h.close hen) hr'
      · rw [scan_other hs he]
        exact ih (h.other (mt (Text.startsAt_iff hc).mp hs) (mt (Text.endsAt_iff hc).mp he)) hr'

theorem resolve_verdict (code : Text) : Verdict code (resolve code) := by
  refine Scanned.verdict ⟨fun k hk => ?_, by simp, trivial, holds_empty code⟩ rfl
  obtain rfl : k = 0 := by omega
  simp

theorem holds_of_resolve (h : resolve code = .ok t) : t.Holds code code.length := by
  have hv := resolve_verdict code
  rw [h] at hv
  exact hv.2

theorem balanced_of_resolve (h : resolve code = .ok t) : code.Balanced := by
  have hv := resolve_verdict code
  rw [h] at hv
  exact hv.1

theorem exists_resolve_iff : (∃ t, resolve code = .ok t) ↔ code.Balanced := by
  constructor
  · rintro ⟨t, h⟩
    exact balanced_of_resolve h
  · intro hb
    obtain ⟨h₀, h₁⟩ := Text.balanced_iff_height.mp hb
    have hv := resolve_verdict code
    cases hr : resolve code with
    | ok t => exact ⟨t, rfl⟩
    | error r =>
      rw [hr] at hv
      exfalso
      cases r with
      | unclosedLoop c p u =>
        obtain ⟨-, -, hu, s, -, ho, hs⟩ := hv
        have := h₀ s ho.lt.le
        omega
      | unopenedLoop c p =>
        obtain ⟨-, n, -, he, -, hn⟩ := hv
        have := h₀ (n + 1) he.lt
        have := Text.height_succ_of_endsAt he
        omega
      | tooLong k => exact hv

end Brainfuck.JumpTable
