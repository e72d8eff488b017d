import Brainfuck.Command
import Mathlib.Order.Bounds.Basic

/-! Brackets of a text, counted. The height of a position is the number of loop starts before it
less the number of loop ends. A step to the next position changes it by one at most, so all of
bracket matching can be said about heights: a loop lasts until the height is first back at the
value it had at its start. -/

namespace Brainfuck

/-- An instruction that is no bracket. -/
def IsPlain (i : Option Command) : Prop := i ≠ some .loopStart ∧ i ≠ some .loopEnd

instance (i : Option Command) : Decidable (IsPlain i) := inferInstanceAs (Decidable (_ ∧ _))

namespace Text

def startCount (t : Text) : Nat := t.count Command.loopStart.codePoint

def endCount (t : Text) : Nat := t.count Command.loopEnd.codePoint

/-- No part from the beginning has more loop ends than starts, and the whole has as many. -/
structure Balanced (t : Text) : Prop where
  endCount_le : ∀ p : Text, p <+: t → p.endCount ≤ p.startCount
  endCount_eq : t.endCount = t.startCount

/-- The loops open before position `n`; less than zero if loop ends prevail. -/
def height (t : Text) (n : Nat) : Int :=
  startCount (t.take n) - endCount (t.take n)

def StartsAt (t : Text) (i : Nat) : Prop := t[i]? = some Command.loopStart.codePoint

def EndsAt (t : Text) (i : Nat) : Prop := t[i]? = some Command.loopEnd.codePoint

instance (t : Text) (i : Nat) : Decidable (t.StartsAt i) := inferInstanceAs (Decidable (_ = _))

instance (t : Text) (i : Nat) : Decidable (t.EndsAt i) := inferInstanceAs (Decidable (_ = _))

variable {t : Text} {i j k n : Nat} {x : CodePoint}

theorem of_drop_eq_cons {rest : Text} (h : t.drop n = x :: rest) :
    t[n]? = some x ∧ t.drop (n + 1) = rest := by
  constructor
  · rw [← List.head?_drop, h, List.head?_cons]
  · rw [← List.tail_drop, h, List.tail_cons]

theorem startsAt_iff (hx : t[i]? = some x) :
    t.StartsAt i ↔ Command.ofCodePoint? x = some .loopStart := by
  rw [StartsAt, hx, Option.some_inj]
  exact ⟨fun h => by rw [h, Command.ofCodePoint?_codePoint], Command.eq_codePoint_of_ofCodePoint?⟩

theorem endsAt_iff (hx : t[i]? = some x) :
    t.EndsAt i ↔ Command.ofCodePoint? x = some .loopEnd := by
  rw [EndsAt, hx, Option.some_inj]
  exact ⟨fun h => by rw [h, Command.ofCodePoint?_codePoint], Command.eq_codePoint_of_ofCodePoint?⟩

theorem StartsAt.lt (h : t.StartsAt i) : i < t.length := by
  by_contra hi
  rw [StartsAt, List.getElem?_eq_none (by omega)] at h
  simp at h

theorem EndsAt.lt (h : t.EndsAt i) : i < t.length := by
  by_contra hi
  rw [EndsAt, List.getElem?_eq_none (by omega)] at h
  simp at h

theorem StartsAt.not_endsAt (h : t.StartsAt i) : ¬ t.EndsAt i := by
  rw [StartsAt] at h
  rw [EndsAt, h]
  decide

@[simp]
theorem height_zero (t : Text) : t.height 0 = 0 := by
  simp [height, startCount, endCount]

theorem height_length (t : Text) : t.height t.length = t.startCount - t.endCount := by
  simp [height]

theorem height_of_length_le (h : t.length ≤ n) : t.height n = t.height t.length := by
  simp [height, List.take_of_length_le h]

theorem height_succ_of_startsAt (h : t.StartsAt n) : t.height (n + 1) = t.height n + 1 := by
  rw [StartsAt] at h
  have he : Command.loopStart.codePoint ≠ Command.loopEnd.codePoint := by decide
  simp only [height, startCount, endCount, List.take_add_one, h, Option.toList_some,
    List.count_append, List.count_singleton_self, List.count_singleton, beq_iff_eq, he, if_false]
  omega

theorem height_succ_of_endsAt (h : t.EndsAt n) : t.height (n + 1) = t.height n - 1 := by
  rw [EndsAt] at h
  have he : Command.loopEnd.codePoint ≠ Command.loopStart.codePoint := by decide
  simp only [height, startCount, endCount, List.take_add_one, h, Option.toList_some,
    List.count_append, List.count_singleton_self, List.count_singleton, beq_iff_eq, he, if_false]
  omega

theorem height_succ_of_not (hs : ¬ t.StartsAt n) (he : ¬ t.EndsAt n) :
    t.height (n + 1) = t.height n := by
  cases hc : t[n]? with
  | none => simp [height, List.take_add_one, hc]
  | some c =>
    have h₁ : c ≠ Command.loopStart.codePoint := fun h => hs (by rw [StartsAt, hc, h])
    have h₂ : c ≠ Command.loopEnd.codePoint := fun h => he (by rw [EndsAt, hc, h])
    simp [height, startCount, endCount, List.take_add_one, hc, h₁, h₂]

theorem endsAt_of_height_succ_lt (h : t.height (n + 1) < t.height n) : t.EndsAt n := by
  by_contra he
  by_cases hs : t.StartsAt n
  · have := height_succ_of_startsAt hs
    omega
  · have := height_succ_of_not hs he
    omega

theorem height_append (s t : Text) (n : Nat) :
    height (s ++ t) (s.length + n) = s.height s.length + t.height n := by
  simp only [height, startCount, endCount, List.take_length_add_append, List.count_append,
    List.take_length]
  omega

theorem height_append_of_le (s t : Text) (h : n ≤ s.length) :
    height (s ++ t) n = s.height n := by
  simp [height, List.take_append_of_le_length h]

theorem height_cons_loopStart (t : Text) (n : Nat) :
    height (Command.loopStart.codePoint :: t) (n + 1) = t.height n + 1 := by
  have he : Command.loopStart.codePoint ≠ Command.loopEnd.codePoint := by decide
  simp only [height, startCount, endCount, List.take_succ_cons, List.count_cons_self,
    List.count_cons_of_ne he]
  omega

theorem height_cons_loopEnd (t : Text) (n : Nat) :
    height (Command.loopEnd.codePoint :: t) (n + 1) = t.height n - 1 := by
  have he : Command.loopEnd.codePoint ≠ Command.loopStart.codePoint := by decide
  simp only [height, startCount, endCount, List.take_succ_cons, List.count_cons_self,
    List.count_cons_of_ne he]
  omega

theorem height_cons_plain (hx : IsPlain (Command.ofCodePoint? x)) (t : Text) (n : Nat) :
    height (x :: t) (n + 1) = t.height n := by
  have h₁ : x ≠ Command.loopStart.codePoint := fun h => hx.1 (by rw [h]; simp)
  have h₂ : x ≠ Command.loopEnd.codePoint := fun h => hx.2 (by rw [h]; simp)
  simp [height, startCount, endCount, h₁, h₂]

theorem endCount_le_iff_height :
    (∀ s : Text, s <+: t → s.endCount ≤ s.startCount) ↔ ∀ n ≤ t.length, 0 ≤ t.height n := by
  constructor
  · intro h n _
    have := h (t.take n) (List.take_prefix n t)
    simp only [height]
    omega
  · intro h s hs
    have hn := h s.length hs.length_le
    rw [height, ← List.prefix_iff_eq_take.mp hs] at hn
    omega

theorem balanced_iff_height :
    t.Balanced ↔ (∀ n ≤ t.length, 0 ≤ t.height n) ∧ t.height t.length = 0 := by
  rw [← endCount_le_iff_height, height_length]
  constructor
  · intro h
    exact ⟨h.endCount_le, by rw [h.endCount_eq]; omega⟩
  · rintro ⟨h₀, h₁⟩
    exact ⟨h₀, by omega⟩

/-! ### Loops -/

/-- The loop that starts at `i` ends at `j`: the height stays above its value at `i` up to `j` and
is back at it right after `j`. -/
structure Encloses (t : Text) (i j : Nat) : Prop where
  lt : i < j
  startsAt : t.StartsAt i
  above : ∀ k, i < k → k ≤ j → t.height i < t.height k
  height_eq : t.height (j + 1) = t.height i

/-- The loop that starts at `i` is still open before `n`. -/
structure OpenAt (t : Text) (n i : Nat) : Prop where
  lt : i < n
  startsAt : t.StartsAt i
  above : ∀ k, i < k → k ≤ n → t.height i < t.height k

namespace Encloses

variable {i' j' : Nat}

theorem endsAt (h : t.Encloses i j) : t.EndsAt j := by
  apply endsAt_of_height_succ_lt
  rw [h.height_eq]
  exact h.above j h.lt le_rfl

/-- Two loops one of which starts inside the other are nested. -/
theorem lt_or_lt (h : t.Encloses i j) (h' : t.Encloses i' j') (hi : i < i') :
    j < i' ∨ j' < j := by
  by_contra hc
  have h₁ := h.above i' hi (by omega)
  by_cases hj : j' = j
  · have h₂ := h.height_eq
    have h₃ := h'.height_eq
    rw [hj] at h₃
    omega
  · have h₂ := h'.above (j + 1) (by omega) (by omega)
    have h₃ := h.height_eq
    omega

theorem end_unique (h : t.Encloses i j) (h' : t.Encloses i j') : j = j' := by
  by_contra hj
  rcases Nat.lt_or_gt_of_ne hj with hlt | hlt
  · have h₁ := h'.above (j + 1) (by have := h.lt; omega) (by omega)
    have h₂ := h.height_eq
    omega
  · have h₁ := h.above (j' + 1) (by have := h'.lt; omega) (by omega)
    have h₂ := h'.height_eq
    omega

theorem start_unique (h : t.Encloses i j) (h' : t.Encloses i' j) : i = i' := by
  by_contra hi
  have hj := h.lt
  have hj' := h'.lt
  rcases Nat.lt_or_gt_of_ne hi with hlt | hlt
  · rcases h.lt_or_lt h' hlt with h₁ | h₁ <;> omega
  · rcases h'.lt_or_lt h hlt with h₁ | h₁ <;> omega

end Encloses

theorem StartsAt.openAt_or_encloses (h : t.StartsAt i) (hn : i < n) :
    t.OpenAt n i ∨ ∃ j < n, t.Encloses i j := by
  induction n, hn using Nat.le_induction with
  | base =>
    refine .inl ⟨Nat.lt_succ_self i, h, fun k h₁ h₂ => ?_⟩
    obtain rfl : k = i + 1 := by omega
    rw [height_succ_of_startsAt h]
    omega
  | succ n hn ih =>
    rcases ih with ho | ⟨j, hj, he⟩
    · by_cases hh : t.height i < t.height (n + 1)
      · refine .inl ⟨by omega, h, fun k h₁ h₂ => ?_⟩
        rcases Nat.lt_or_ge n k with hk | hk
        · obtain rfl : k = n + 1 := by omega
          exact hh
        · exact ho.above k h₁ hk
      · -- the height falls by one at most, so it stops exactly at its old value
        have hlt := ho.above n (by omega) le_rfl
        have he : t.EndsAt n := endsAt_of_height_succ_lt (by omega)
        have hd := height_succ_of_endsAt he
        exact .inr ⟨n, by omega, by omega, h, ho.above, by omega⟩
    · exact .inr ⟨j, by omega, he⟩

/-- Each level that a position is above has its open loop there. -/
theorem exists_openAt {m : Int} (h₀ : 0 ≤ m) (hm : m < t.height n) :
    ∃ i, t.OpenAt n i ∧ t.height i = m := by
  induction n with
  | zero =>
    rw [height_zero] at hm
    omega
  | succ n ih =>
    by_cases hlt : m < t.height n
    · obtain ⟨i, ho, hi⟩ := ih hlt
      refine ⟨i, ⟨by have := ho.lt; omega, ho.startsAt, fun k h₁ h₂ => ?_⟩, hi⟩
      rcases Nat.lt_or_ge n k with hk | hk
      · obtain rfl : k = n + 1 := by omega
        omega
      · exact ho.above k h₁ hk
    · -- the level is new, so it is the one that the bracket at `n` adds
      have hs : t.StartsAt n := by
        by_contra hs
        by_cases he : t.EndsAt n
        · have := height_succ_of_endsAt he
          omega
        · have := height_succ_of_not hs he
          omega
      have hh := height_succ_of_startsAt hs
      refine ⟨n, ⟨by omega, hs, fun k h₁ h₂ => ?_⟩, by omega⟩
      obtain rfl : k = n + 1 := by omega
      omega

theorem Balanced.exists_encloses_of_startsAt (h : t.Balanced) (hi : t.StartsAt i) :
    ∃ j, t.Encloses i j := by
  obtain ⟨h₀, h₁⟩ := balanced_iff_height.mp h
  rcases hi.openAt_or_encloses hi.lt with ho | ⟨j, -, he⟩
  · have hh := ho.above t.length hi.lt le_rfl
    have := h₀ i hi.lt.le
    omega
  · exact ⟨j, he⟩

theorem Balanced.exists_encloses_of_endsAt (h : t.Balanced) (hj : t.EndsAt j) :
    ∃ i, t.Encloses i j := by
  have hh := height_succ_of_endsAt hj
  have h₀ := (balanced_iff_height.mp h).1 (j + 1) hj.lt
  obtain ⟨i, ho, hi⟩ := exists_openAt h₀ (show t.height (j + 1) < t.height j by omega)
  exact ⟨i, ho.lt, ho.startsAt, ho.above, hi.symm⟩

/-! ### Balanced parts -/

theorem balanced_nil : Balanced [] :=
  balanced_iff_height.mpr ⟨fun n hn => by obtain rfl : n = 0 := Nat.le_zero.mp hn; simp, rfl⟩

theorem Balanced.cons_plain (hx : IsPlain (Command.ofCodePoint? x)) (h : t.Balanced) :
    Balanced (x :: t) := by
  obtain ⟨h₀, h₁⟩ := balanced_iff_height.mp h
  refine balanced_iff_height.mpr ⟨fun n hn => ?_, ?_⟩
  · cases n with
    | zero => simp
    | succ n =>
      rw [height_cons_plain hx]
      exact h₀ n (by simpa using hn)
  · rw [List.length_cons, height_cons_plain hx, h₁]

/-- The heights behind the start of a loop: one more in its body, as before after its end. -/
theorem height_loop_body {body : Text} (rest : Text) (hn : n ≤ body.length) :
    height (Command.loopStart.codePoint :: (body ++ Command.loopEnd.codePoint :: rest)) (n + 1) =
      body.height n + 1 := by
  rw [height_cons_loopStart, height_append_of_le body _ hn]

theorem height_loop_rest {body : Text} (hb : body.Balanced) (rest : Text) (n : Nat) :
    height (Command.loopStart.codePoint :: (body ++ Command.loopEnd.codePoint :: rest))
      (body.length + n + 2) = rest.height n := by
  rw [height_cons_loopStart, Nat.add_assoc, height_append, height_cons_loopEnd,
    (balanced_iff_height.mp hb).2]
  omega

theorem Balanced.loop {body rest : Text} (hb : body.Balanced) (hr : rest.Balanced) :
    Balanced (Command.loopStart.codePoint :: (body ++ Command.loopEnd.codePoint :: rest)) := by
  obtain ⟨hb₀, -⟩ := balanced_iff_height.mp hb
  obtain ⟨hr₀, hr₁⟩ := balanced_iff_height.mp hr
  refine balanced_iff_height.mpr ⟨fun n hn => ?_, ?_⟩
  · simp only [List.length_cons, List.length_append] at hn
    rcases Nat.eq_zero_or_pos n with rfl | hpos
    · simp
    rcases Nat.lt_or_ge body.length (n - 1) with hlt | hle
    · rw [show n = body.length + (n - body.length - 2) + 2 by omega, height_loop_rest hb]
      exact hr₀ _ (by omega)
    · have := hb₀ _ hle
      rw [show n = n - 1 + 1 by omega, height_loop_body rest hle]
      omega
  · rw [show (Command.loopStart.codePoint :: (body ++ Command.loopEnd.codePoint :: rest)).length =
      body.length + rest.length + 2 by simp; omega, height_loop_rest hb, hr₁]

/-- A balanced part between two brackets makes a loop of them, wherever it stands. -/
theorem Balanced.encloses {body : Text} (hb : body.Balanced) (pre post : Text) :
    Encloses (pre ++ Command.loopStart.codePoint :: (body ++ Command.loopEnd.codePoint :: post))
      pre.length (pre.length + body.length + 1) := by
  have hs := height_append pre
    (Command.loopStart.codePoint :: (body ++ Command.loopEnd.codePoint :: post))
  have h₀ := hs 0
  rw [Nat.add_zero, height_zero] at h₀
  refine ⟨by omega, by simp [StartsAt], fun k h₁ h₂ => ?_, ?_⟩
  · have hk := hs (k - pre.length - 1 + 1)
    have hn := (balanced_iff_height.mp hb).1 (k - pre.length - 1) (by omega)
    rw [height_loop_body post (by omega),
      show pre.length + (k - pre.length - 1 + 1) = k by omega] at hk
    omega
  · have he := hs (body.length + 0 + 2)
    rw [height_loop_rest hb post 0, height_zero] at he
    rw [show pre.length + body.length + 1 + 1 = pre.length + (body.length + 0 + 2) by omega, he, h₀]

/-! ### Segments -/

/-- The part of a text from position `i` up to and including position `j`. -/
def segment (t : Text) (i j : Nat) : Text := (t.take (j + 1)).drop i

theorem height_segment (t : Text) (h : i ≤ j) :
    t.height (j + 1) =
      t.height i + ((t.segment i j).startCount - (t.segment i j).endCount) := by
  have hs : t.take (j + 1) = t.take i ++ t.segment i j := by
    conv_lhs => rw [← List.take_append_drop i (t.take (j + 1))]
    rw [List.take_take, Nat.min_eq_left (by omega)]
    rfl
  simp only [height, startCount, endCount, hs, List.count_append]
  omega

/-- The end of a loop is the first position that evens out the brackets from its start on. -/
theorem Encloses.isLeast (h : t.Encloses i j) :
    IsLeast {j | i < j ∧ (t.segment i j).startCount = (t.segment i j).endCount} j := by
  have hj := h.lt
  constructor
  · have hs := height_segment t (show i ≤ j by omega)
    have he := h.height_eq
    exact ⟨hj, by omega⟩
  · rintro k ⟨hk, hc⟩
    by_contra hlt
    have hs := height_segment t (show i ≤ k by omega)
    have ha := h.above (k + 1) (by omega) (by omega)
    omega

end Text

end Brainfuck
