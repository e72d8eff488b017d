import Brainfuck.Proofs.Bracket.Resolve

/-! Which bracket is blamed. A program without a table has a loop end that no loop start before it
pays for, and the first such one is reported whatever follows it; or it has none, and then the last
of the loops that are never closed is reported, with the number of them. -/

namespace Brainfuck

namespace Text

/-- The loop that starts at `i` is never closed: the text right behind its start never has more
loop ends than starts. -/
structure NeverClosed (t : Text) (i : Nat) : Prop where
  startsAt : t.StartsAt i
  endCount_le : ∀ s : Text, s <+: t.drop (i + 1) → s.endCount ≤ s.startCount

variable {t : Text} {i n : Nat}

theorem height_drop (h : i ≤ t.length) (n : Nat) :
    t.height (i + n) = t.height i + height (t.drop i) n := by
  have hl : (t.take i).length = i := by simpa using h
  have ht := height_append (t.take i) (t.drop i) n
  have hi := height_append_of_le (t.take i) (t.drop i) hl.ge
  rw [List.take_append_drop, hl] at ht
  rw [List.take_append_drop] at hi
  rw [ht, hi]

/-- A loop is never closed if it is open at the end of the text. -/
theorem neverClosed_iff_openAt : t.NeverClosed i ↔ t.OpenAt t.length i := by
  constructor
  · rintro ⟨hs, hp⟩
    have hup := height_succ_of_startsAt hs
    refine ⟨hs.lt, hs, fun k h₁ h₂ => ?_⟩
    obtain ⟨m, rfl⟩ := Nat.exists_eq_add_of_le (show i + 1 ≤ k by omega)
    have hm := endCount_le_iff_height.mp hp m (by rw [List.length_drop]; omega)
    rw [height_drop (show i + 1 ≤ t.length from hs.lt)]
    omega
  · intro h
    have hup := height_succ_of_startsAt h.startsAt
    refine ⟨h.startsAt, endCount_le_iff_height.mpr fun m hm => ?_⟩
    have hlt := h.lt
    rw [List.length_drop] at hm
    have ha := h.above (i + 1 + m) (by omega) (by omega)
    rw [height_drop (show i + 1 ≤ t.length from hlt)] at ha
    omega

/-- The beginnings of a text with more loop ends than starts. -/
def overclosed (t : Text) : Set Text := {s | s <+: t ∧ s.startCount < s.endCount}

theorem overclosed_eq_empty_iff : t.overclosed = ∅ ↔ ∀ n ≤ t.length, 0 ≤ t.height n := by
  rw [← endCount_le_iff_height, Set.eq_empty_iff_forall_notMem]
  exact forall_congr' fun s => by simp [overclosed]

/-- The shortest such beginning is the first position below height zero. -/
theorem isLeast_overclosed_iff :
    IsLeast (List.length '' t.overclosed) n ↔
      n ≤ t.length ∧ t.height n < 0 ∧ ∀ k < n, 0 ≤ t.height k := by
  have hmem : ∀ k, k ∈ List.length '' t.overclosed ↔ k ≤ t.length ∧ t.height k < 0 := by
    intro k
    constructor
    · rintro ⟨s, ⟨hs, hc⟩, rfl⟩
      rw [height, ← List.prefix_iff_eq_take.mp hs]
      exact ⟨hs.length_le, by omega⟩
    · rintro ⟨hk, hh⟩
      rw [height] at hh
      exact ⟨t.take k, ⟨List.take_prefix k t, by omega⟩, by simpa using hk⟩
  rw [IsLeast, hmem, and_assoc]
  refine and_congr_right fun hn => and_congr_right fun _ => ⟨fun h k hk => ?_, fun h k hk => ?_⟩
  · by_contra hh
    have := h ((hmem k).mpr ⟨by omega, by omega⟩)
    omega
  · by_contra hlt
    have := h k (by omega)
    have := ((hmem k).mp hk).2
    omega

end Text

namespace JumpTable

variable {code : Text}

/-- What is reported of a program whose brackets do not match. -/
structure Blames (code : Text) (answer : Except Rejection JumpTable) : Prop where
  /-- A loop end is reported if some beginning has more loop ends than starts. -/
  unopened_iff : (∃ c p, answer = .error (.unopenedLoop c p)) ↔ code.overclosed.Nonempty
  /-- It is the last code point of the shortest such beginning. -/
  unopened_eq : ∀ c p, answer = .error (.unopenedLoop c p) → c = code ∧
    ∃ n : Nat, p = n ∧ IsLeast (List.length '' code.overclosed) (n + 1)
  /-- A loop start is reported if there is no such beginning and starts prevail in the whole. -/
  unclosed_iff : (∃ c p u, answer = .error (.unclosedLoop c p u)) ↔
    code.overclosed = ∅ ∧ code.endCount < code.startCount
  /-- It is the last of the loops that are never closed. -/
  unclosed_eq : ∀ c p u, answer = .error (.unclosedLoop c p u) → c = code ∧
    u = code.startCount - code.endCount ∧ ∃ n : Nat, p = n ∧ IsGreatest {i | code.NeverClosed i} n

theorem unopened_of_resolve {c : Text} {p : Int} (h : resolve code = .error (.unopenedLoop c p)) :
    c = code ∧ ∃ n : Nat, p = n ∧ IsLeast (List.length '' code.overclosed) (n + 1) := by
  have hv := resolve_verdict code
  rw [h] at hv
  obtain ⟨rfl, n, rfl, he, hpos, hn⟩ := hv
  have hdown := Text.height_succ_of_endsAt he
  refine ⟨rfl, n, rfl, Text.isLeast_overclosed_iff.mpr ⟨he.lt, by omega, fun k hk => ?_⟩⟩
  exact hpos k (by omega)

theorem unclosed_of_resolve {c : Text} {p u : Int}
    (h : resolve code = .error (.unclosedLoop c p u)) :
    c = code ∧ (∀ k ≤ code.length, 0 ≤ code.height k) ∧ u = code.startCount - code.endCount ∧
      0 < u ∧ ∃ n : Nat, p = n ∧ IsGreatest {i | code.NeverClosed i} n := by
  have hv := resolve_verdict code
  rw [h] at hv
  obtain ⟨rfl, hpos, rfl, n, rfl, ho, hn⟩ := hv
  have h₀ := hpos n ho.lt.le
  refine ⟨rfl, hpos, Text.height_length c, by omega, n, rfl, Text.neverClosed_iff_openAt.mpr ho, ?_⟩
  -- a later loop that is never closed would be one level higher than the text ends
  intro i hi
  have hi' := Text.neverClosed_iff_openAt.mp hi
  by_contra hlt
  have h₁ := ho.above i (by omega) hi'.lt.le
  have h₂ := hi'.above c.length hi'.lt le_rfl
  omega

theorem exists_unopened_iff :
    (∃ c p, resolve code = .error (.unopenedLoop c p)) ↔ code.overclosed.Nonempty := by
  constructor
  · rintro ⟨c, p, h⟩
    obtain ⟨-, n, -, ⟨s, hs, -⟩, -⟩ := unopened_of_resolve h
    exact ⟨s, hs⟩
  · intro hne
    have hneg : ¬ ∀ n ≤ code.length, 0 ≤ code.height n :=
      fun h => hne.ne_empty (Text.overclosed_eq_empty_iff.mpr h)
    cases hr : resolve code with
    | ok t => exact absurd (Text.balanced_iff_height.mp (balanced_of_resolve hr)).1 hneg
    | error r =>
      cases r with
      | unclosedLoop c p u => exact absurd (unclosed_of_resolve hr).2.1 hneg
      | unopenedLoop c p => exact ⟨c, p, rfl⟩
      | tooLong k =>
        have hv := resolve_verdict code
        rw [hr] at hv
        exact hv.elim

theorem exists_unclosed_iff :
    (∃ c p u, resolve code = .error (.unclosedLoop c p u)) ↔
      code.overclosed = ∅ ∧ code.endCount < code.startCount := by
  constructor
  · rintro ⟨c, p, u, h⟩
    obtain ⟨-, hpos, hu, h₀, -⟩ := unclosed_of_resolve h
    exact ⟨Text.overclosed_eq_empty_iff.mpr hpos, by omega⟩
  · rintro ⟨hempty, hlt⟩
    cases hr : resolve code with
    | ok t =>
      have := (balanced_of_resolve hr).endCount_eq
      omega
    | error r =>
      cases r with
      | unclosedLoop c p u => exact ⟨c, p, u, rfl⟩
      | unopenedLoop c p =>
        have hne := exists_unopened_iff.mp ⟨c, p, hr⟩
        exact absurd hempty hne.ne_empty
      | tooLong k =>
        have hv := resolve_verdict code
        rw [hr] at hv
        exact hv.elim

/-- What follows a loop end without a loop does not change what is reported. -/
theorem resolve_take_append {n : Nat} (h : resolve code = .error (.unopenedLoop code n))
    (rest : Text) :
    resolve (code.take (n + 1) ++ rest) =
      .error (.unopenedLoop (code.take (n + 1) ++ rest) n) := by
  obtain ⟨-, m, hm, hleast⟩ := unopened_of_resolve h
  obtain rfl : n = m := by omega
  obtain ⟨hle, hneg, hpos⟩ := Text.isLeast_overclosed_iff.mp hleast
  have hl : (code.take (n + 1)).length = n + 1 := by simpa using hle
  have hh : ∀ k ≤ n + 1, Text.height (code.take (n + 1) ++ rest) k = code.height k := by
    intro k hk
    have hcode := Text.height_append_of_le (code.take (n + 1)) (code.drop (n + 1)) (hl.symm ▸ hk)
    rw [List.take_append_drop] at hcode
    rw [Text.height_append_of_le _ rest (hl.symm ▸ hk), hcode]
  have hleast' : IsLeast (List.length '' Text.overclosed (code.take (n + 1) ++ rest)) (n + 1) := by
    refine Text.isLeast_overclosed_iff.mpr ⟨by simp; omega, hh _ le_rfl ▸ hneg, fun k hk => ?_⟩
    rw [hh k hk.le]
    exact hpos k hk
  obtain ⟨c, p, hr⟩ := exists_unopened_iff.mpr hleast'.nonempty.of_image
  obtain ⟨rfl, m, rfl, hm⟩ := unopened_of_resolve hr
  rw [hr, show n = m by have := hm.unique hleast'; omega]

/-- The bracket that is reported is the right one, and the text behind an unmatched loop end plays
no part in it. -/
theorem resolve_blames (code : Text) :
    Blames code (resolve code) ∧
      ∀ n : Nat, resolve code = .error (.unopenedLoop code n) → ∀ rest : Text,
        resolve (code.take (n + 1) ++ rest) =
          .error (.unopenedLoop (code.take (n + 1) ++ rest) n) := by
  refine ⟨⟨exists_unopened_iff, fun c p => unopened_of_resolve, exists_unclosed_iff, ?_⟩,
    fun n => resolve_take_append⟩
  intro c p u h
  obtain ⟨hc, -, hu, -, hn⟩ := unclosed_of_resolve h
  exact ⟨hc, hu, hn⟩

/-- A loop end behind a whole loop, with two continuations, and the last of two loops that are not
closed, behind one that is. -/
theorem resolve_blames_behind_loops :
    resolve (Text.ofString "a[]]" ++ Text.ofString "[[") =
      .error (.unopenedLoop (Text.ofString "a[]][[") 3) ∧
    IsLeast (List.length '' Text.overclosed (Text.ofString "a[]]]")) 4 ∧
    IsGreatest {i | (Text.ofString "[[+][[]").NeverClosed i} 4 := by
  have h : resolve (Text.ofString "a[]]]") = .error (.unopenedLoop (Text.ofString "a[]]]") 3) := rfl
  obtain ⟨hblames, hrest⟩ := resolve_blames (Text.ofString "a[]]]")
  refine ⟨hrest 3 h (Text.ofString "[["), ?_, ?_⟩
  · obtain ⟨-, n, hn, hleast⟩ := hblames.unopened_eq _ _ h
    obtain rfl : n = 3 := by omega
    exact hleast
  · obtain ⟨-, -, n, hn, hgreatest⟩ :=
      (resolve_blames (Text.ofString "[[+][[]")).1.unclosed_eq _ 4 2 rfl
    obtain rfl : n = 4 := by omega
    exact hgreatest

end JumpTable

end Brainfuck
