import Brainfuck.Proofs.Bracket.Resolve

/-! One text after another. A balanced text ends at the height it began with, so the loops of two
balanced texts in a row are those of the first and, further on, those of the second. No loop goes
across the seam, and the table of the whole is the two tables in a row. -/

namespace Brainfuck

namespace Text

variable {s t : Text} {i j : Nat}

theorem startsAt_append_left (hi : i < s.length) : StartsAt (s ++ t) i ↔ s.StartsAt i := by
  rw [StartsAt, StartsAt, List.getElem?_append_left hi]

theorem getElem?_append_length_add (s t : Text) (i : Nat) : (s ++ t)[s.length + i]? = t[i]? := by
  rw [List.getElem?_append_right (Nat.le_add_right _ _), Nat.add_sub_cancel_left]

theorem startsAt_append_right (s t : Text) (i : Nat) :
    StartsAt (s ++ t) (s.length + i) ↔ t.StartsAt i := by
  rw [StartsAt, StartsAt, getElem?_append_length_add]

/-- Behind a balanced text heights count from zero again. -/
theorem Balanced.height_append (hs : s.Balanced) (t : Text) (n : Nat) :
    height (s ++ t) (s.length + n) = t.height n := by
  rw [Text.height_append, (balanced_iff_height.mp hs).2, Int.zero_add]

theorem Balanced.append (hs : s.Balanced) (ht : t.Balanced) : Balanced (s ++ t) := by
  obtain ⟨hs₀, -⟩ := balanced_iff_height.mp hs
  obtain ⟨ht₀, ht₁⟩ := balanced_iff_height.mp ht
  refine balanced_iff_height.mpr ⟨fun n hn => ?_, ?_⟩
  · rw [List.length_append] at hn
    rcases Nat.lt_or_ge s.length n with hlt | hle
    · obtain ⟨m, rfl⟩ := Nat.exists_eq_add_of_le hlt.le
      rw [hs.height_append]
      exact ht₀ m (by omega)
    · rw [height_append_of_le s t hle]
      exact hs₀ n hle
  · rw [List.length_append, hs.height_append, ht₁]

theorem Encloses.append_left (h : s.Encloses i j) (t : Text) : Encloses (s ++ t) i j := by
  have hi := h.startsAt.lt
  have hj := h.endsAt.lt
  refine ⟨h.lt, (startsAt_append_left hi).mpr h.startsAt, fun k h₁ h₂ => ?_, ?_⟩
  · rw [height_append_of_le s t hi.le, height_append_of_le s t (by omega)]
    exact h.above k h₁ h₂
  · rw [height_append_of_le s t hi.le, height_append_of_le s t hj]
    exact h.height_eq

theorem Encloses.append_right (hs : s.Balanced) (h : t.Encloses i j) :
    Encloses (s ++ t) (s.length + i) (s.length + j) := by
  have hij := h.lt
  refine ⟨by omega, (startsAt_append_right s t i).mpr h.startsAt, fun k h₁ h₂ => ?_, ?_⟩
  · obtain ⟨m, rfl⟩ := Nat.exists_eq_add_of_le (show s.length ≤ k by omega)
    rw [hs.height_append, hs.height_append]
    exact h.above m (by omega) (by omega)
  · rw [Nat.add_assoc, hs.height_append, hs.height_append]
    exact h.height_eq

/-- A loop of two balanced texts in a row is a loop of one of them. -/
theorem encloses_append_iff (hs : s.Balanced) (ht : t.Balanced) :
    Encloses (s ++ t) i j ↔
      s.Encloses i j ∨ ∃ i' j', i = s.length + i' ∧ j = s.length + j' ∧ t.Encloses i' j' := by
  constructor
  · intro h
    -- the loop that starts there in its own text is a loop of both, and loops have one end
    rcases Nat.lt_or_ge i s.length with hi | hi
    · obtain ⟨j', he⟩ := hs.exists_encloses_of_startsAt ((startsAt_append_left hi).mp h.startsAt)
      rw [h.end_unique (he.append_left t)]
      exact .inl he
    · obtain ⟨i', rfl⟩ := Nat.exists_eq_add_of_le hi
      obtain ⟨j', he⟩ :=
        ht.exists_encloses_of_startsAt ((startsAt_append_right s t i').mp h.startsAt)
      exact .inr ⟨i', j', rfl, h.end_unique (he.append_right hs), he⟩
  · rintro (h | ⟨i', j', rfl, rfl, h⟩)
    · exact h.append_left t
    · exact h.append_right hs

end Text

namespace JumpTable

/-- The table with every partner `n` positions further on. -/
def shift (t : JumpTable) (n : Nat) : JumpTable :=
  ⟨t.ends.map (Option.map (· + (n : Int))), t.starts.map (Option.map (· + (n : Int)))⟩

/-- The slots of one table, then those of another. -/
def append (t u : JumpTable) : JumpTable := ⟨t.ends ++ u.ends, t.starts ++ u.starts⟩

variable {p q : Text} {t u : JumpTable} {n : Nat}

theorem getElem?_append_shift (a b : Array (Option Int)) (n i : Nat) (x : Int) :
    (a ++ b.map (Option.map (· + (n : Int))))[i]? = some (some x) ↔
      a[i]? = some (some x) ∨
        ∃ (k : Nat) (y : Int), i = a.size + k ∧ x = y + n ∧ b[k]? = some (some y) := by
  rcases Nat.lt_or_ge i a.size with hi | hi
  · rw [Array.getElem?_append_left hi]
    constructor
    · exact .inl
    · rintro (h | ⟨k, y, hk, -⟩)
      · exact h
      · omega
  · obtain ⟨k, rfl⟩ := Nat.exists_eq_add_of_le hi
    rw [Array.getElem?_append_right hi, Nat.add_sub_cancel_left, Array.getElem?_map,
      Array.getElem?_eq_none hi]
    simp only [Option.map_eq_some_iff, reduceCtorEq, false_or]
    constructor
    · rintro ⟨slot, hs, y, rfl, rfl⟩
      exact ⟨k, y, rfl, rfl, hs⟩
    · rintro ⟨k', y, hk, rfl, hs⟩
      obtain rfl : k = k' := by omega
      exact ⟨some y, hs, y, rfl, rfl⟩

theorem slots_ext {a b : Array (Option Int)} (hs : a.size = b.size)
    (h : ∀ (i : Nat) (x : Int), a[i]? = some (some x) ↔ b[i]? = some (some x)) : a = b := by
  refine Array.ext hs fun i hi hi' => Option.ext fun x => ?_
  have hx := h i x
  rwa [Array.getElem?_eq_getElem hi, Array.getElem?_eq_getElem hi', Option.some_inj,
    Option.some_inj] at hx

/-- A table is determined by the loops that it holds. -/
theorem Holds.unique (h : t.Holds p n) (h' : u.Holds p n) : t = u := by
  have he : t.ends = u.ends := slots_ext (by rw [h.ends_size, h'.ends_size]) fun i x => by
    rw [h.ends_iff, h'.ends_iff]
  have hs : t.starts = u.starts := slots_ext (by rw [h.starts_size, h'.starts_size]) fun j x => by
    rw [h.starts_iff, h'.starts_iff]
  cases t
  cases u
  simp_all

theorem Holds.append (ht : t.Holds p p.length) (hp : p.Balanced) (hu : u.Holds q q.length)
    (hq : q.Balanced) : (t.append (u.shift p.length)).Holds (p ++ q) (p ++ q).length := by
  refine ⟨by simp [JumpTable.append, shift, ht.ends_size, hu.ends_size],
    by simp [JumpTable.append, shift, ht.starts_size, hu.starts_size], fun i x => ?_, fun j x => ?_⟩
  · simp only [JumpTable.append, shift, getElem?_append_shift, ht.ends_iff, hu.ends_iff,
      ht.ends_size, Text.encloses_append_iff hp hq]
    constructor
    · rintro (⟨j, -, rfl, he⟩ | ⟨i', y, rfl, rfl, j, -, rfl, he⟩)
      · exact ⟨j, (he.append_left q).endsAt.lt, rfl, .inl he⟩
      · exact ⟨p.length + j, (he.append_right hp).endsAt.lt, by omega, .inr ⟨i', j, rfl, rfl, he⟩⟩
    · rintro ⟨j, -, rfl, he | ⟨i', j', rfl, rfl, he⟩⟩
      · exact .inl ⟨j, he.endsAt.lt, rfl, he⟩
      · exact .inr ⟨i', j', rfl, by omega, j', he.endsAt.lt, rfl, he⟩
  · simp only [JumpTable.append, shift, getElem?_append_shift, ht.starts_iff, hu.starts_iff,
      ht.starts_size, Text.encloses_append_iff hp hq]
    constructor
    · rintro (⟨-, i, rfl, he⟩ | ⟨j', y, rfl, rfl, -, i', rfl, he⟩)
      · exact ⟨(he.append_left q).endsAt.lt, i, rfl, .inl he⟩
      · exact ⟨(he.append_right hp).endsAt.lt, p.length + i', by omega,
          .inr ⟨i', j', rfl, rfl, he⟩⟩
    · rintro ⟨-, i, rfl, he | ⟨i', j', rfl, rfl, he⟩⟩
      · exact .inl ⟨he.endsAt.lt, i, rfl, he⟩
      · exact .inr ⟨j', i', rfl, by omega, he.endsAt.lt, i', rfl, he⟩

/-- Two programs with tables have, one after the other, their tables in a row. -/
theorem resolve_append (hp : resolve p = .ok t) (hq : resolve q = .ok u) :
    resolve (p ++ q) = .ok (t.append (u.shift p.length)) := by
  have hbp := balanced_of_resolve hp
  have hbq := balanced_of_resolve hq
  obtain ⟨v, hv⟩ := exists_resolve_iff.mpr (hbp.append hbq)
  rw [hv, (holds_of_resolve hv).unique
    ((holds_of_resolve hp).append hbp (holds_of_resolve hq) hbq)]

end JumpTable

end Brainfuck
