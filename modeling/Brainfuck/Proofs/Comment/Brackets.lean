import Brainfuck.Proofs.Bracket.Resolve
import Brainfuck.Proofs.Comment.Rank
import Mathlib.Data.Set.Function
import Mathlib.Order.Interval.Set.Defs

/-! Comments and brackets. The scan of a text and the scan of its commands go side by side, the
positions of the one being the ranks of the other, so they come to corresponding answers. -/

namespace Brainfuck

namespace Text

def bare (t : Text) : Text := ofCommands t.commands

def CommandAt (t : Text) (i : Nat) : Prop := ∃ x c, t[i]? = some x ∧ Command.ofCodePoint? x = some c

variable {t : Text} {i j : Nat}

theorem length_bare (t : Text) : t.bare.length = t.rank t.length := by
  rw [bare, ofCommands, List.length_map, rank_length]

theorem CommandAt.lt (h : t.CommandAt i) : i < t.length := by
  obtain ⟨x, c, hx, -⟩ := h
  exact (List.getElem?_eq_some_iff.mp hx).1

theorem CommandAt.rank_succ (h : t.CommandAt i) : t.rank (i + 1) = t.rank i + 1 := by
  obtain ⟨x, c, hx, hc⟩ := h
  exact rank_succ_of_some hx hc

theorem CommandAt.rank_lt (h : t.CommandAt i) : t.rank i < t.bare.length := by
  obtain ⟨x, c, hx, hc⟩ := h
  exact (List.getElem?_eq_some_iff.mp (getElem?_ofCommands hx hc)).1

theorem CommandAt.rank_inj (hi : t.CommandAt i) (hj : t.CommandAt j) (h : t.rank i = t.rank j) :
    i = j := by
  obtain ⟨x, c, hx, hc⟩ := hi
  obtain ⟨y, d, hy, hd⟩ := hj
  rcases Nat.lt_trichotomy i j with hlt | heq | hgt
  · have := rank_lt_rank hx hc hlt
    omega
  · exact heq
  · have := rank_lt_rank hy hd hgt
    omega

theorem exists_rank_eq {k : Nat} (h : k < t.bare.length) : ∃ i, t.CommandAt i ∧ t.rank i = k := by
  rw [length_bare] at h
  generalize hn : t.length = n at h
  have hle : n ≤ t.length := hn.ge
  clear hn
  induction n with
  | zero => simp [rank, commands] at h
  | succ n ih =>
    have hx : t[n]? = some t[n] := List.getElem?_eq_getElem hle
    cases hc : Command.ofCodePoint? t[n] with
    | none =>
      rw [rank_succ_of_none hx hc] at h
      exact ih h (by omega)
    | some c =>
      rw [rank_succ_of_some hx hc] at h
      rcases Nat.lt_or_ge k (t.rank n) with hlt | hge
      · exact ih hlt (by omega)
      · exact ⟨n, ⟨_, c, hx, hc⟩, by omega⟩

/-- The commands of a text and the positions of the text without comments correspond. -/
theorem bijOn_rank (t : Text) : Set.BijOn t.rank {i | t.CommandAt i} (Set.Iio t.bare.length) := by
  refine ⟨?_, ?_, ?_⟩
  · intro i hi
    exact hi.rank_lt
  · intro i hi j hj h
    exact hi.rank_inj hj h
  · intro k hk
    exact exists_rank_eq hk

end Text

namespace JumpTable

/-- A slot with the ranks of the text's positions. -/
def rankSlot (code : Text) (slot : Option Int) : Option Int :=
  slot.map fun p => (code.rank p.toNat : Int)

/-- The tables agree on the commands of a text and have a slot for each position. -/
structure Agree (code : Text) (t t' : JumpTable) : Prop where
  ends_size : t.ends.size = code.length
  starts_size : t.starts.size = code.length
  ends_size' : t'.ends.size = code.bare.length
  starts_size' : t'.starts.size = code.bare.length
  ends_eq : ∀ i, code.CommandAt i →
    t'.ends[code.rank i]? = t.ends[i]?.map (rankSlot code)
  starts_eq : ∀ i, code.CommandAt i →
    t'.starts[code.rank i]? = t.starts[i]?.map (rankSlot code)

/-- The answers to a text and to the text without comments agree: on the loops, or on what is
wrong and where. -/
def SameAnswer (code : Text) : Except Rejection JumpTable → Except Rejection JumpTable → Prop
  | .ok t, .ok t' => Agree code t t'
  | .error (.unclosedLoop x p u), .error (.unclosedLoop y q v) =>
    x = code ∧ y = code.bare ∧ v = u ∧ ∃ i, code.CommandAt i ∧ p = i ∧ q = code.rank i
  | .error (.unopenedLoop x p), .error (.unopenedLoop y q) =>
    x = code ∧ y = code.bare ∧ ∃ i, code.CommandAt i ∧ p = i ∧ q = code.rank i
  | _, _ => False

variable {code rest : Text} {n s : Nat} {pending : List Nat} {t t' : JumpTable}

theorem setIfInBounds_eq {a a' : Array (Option Int)} (ha : a.size = code.length)
    (ha' : a'.size = code.bare.length)
    (h : ∀ i, code.CommandAt i → a'[code.rank i]? = a[i]?.map (rankSlot code))
    (hs : code.CommandAt s) (p : Nat) (i : Nat) (hi : code.CommandAt i) :
    (a'.setIfInBounds (code.rank s) (some (code.rank p : Int)))[code.rank i]? =
      (a.setIfInBounds s (some (p : Int)))[i]?.map (rankSlot code) := by
  rw [Array.getElem?_setIfInBounds, Array.getElem?_setIfInBounds]
  by_cases hsi : s = i
  · subst hsi
    have h₁ : s < a.size := ha ▸ hs.lt
    have h₂ : code.rank s < a'.size := ha' ▸ hs.rank_lt
    rw [if_pos rfl, if_pos rfl, if_pos h₁, if_pos h₂]
    simp [rankSlot]
  · rw [if_neg hsi, if_neg fun hr => hsi (hs.rank_inj hi hr), h i hi]

theorem Agree.link (h : Agree code t t') (hs : code.CommandAt s) (hn : code.CommandAt n) :
    Agree code (t.link s n) (t'.link (code.rank s) (code.rank n)) where
  ends_size := by simp [JumpTable.link, h.ends_size]
  starts_size := by simp [JumpTable.link, h.starts_size]
  ends_size' := by simp [JumpTable.link, h.ends_size']
  starts_size' := by simp [JumpTable.link, h.starts_size']
  ends_eq i hi := setIfInBounds_eq h.ends_size h.ends_size' h.ends_eq hs n i hi
  starts_eq i hi := setIfInBounds_eq h.starts_size h.starts_size' h.starts_eq hn s i hi

theorem agree_empty (code : Text) : Agree code (empty code.length) (empty code.bare.length) := by
  have h : ∀ i, code.CommandAt i →
      (Array.replicate code.bare.length (none : Option Int))[code.rank i]? =
        (Array.replicate code.length (none : Option Int))[i]?.map (rankSlot code) := by
    intro i hi
    simp [hi.rank_lt, hi.lt, rankSlot]
  exact ⟨by simp [empty], by simp [empty], by simp [empty], by simp [empty], h, h⟩

/-- The two scans side by side. -/
theorem scan_bare (hr : code.drop n = rest) (hp : ∀ s ∈ pending, code.CommandAt s)
    (ha : Agree code t t') :
    SameAnswer code (scan code rest n pending t)
      (scan code.bare rest.bare (code.rank n) (pending.map code.rank) t') := by
  induction rest generalizing n pending t t' with
  | nil =>
    cases pending with
    | nil => exact ha
    | cons s outer =>
      refine ⟨rfl, rfl, by simp, s, hp s (by simp), rfl, rfl⟩
  | cons x rest ih =>
    obtain ⟨hx, hr'⟩ := Text.of_drop_eq_cons hr
    cases hc : Command.ofCodePoint? x with
    | none =>
      have hb : Text.bare (x :: rest) = Text.bare rest := by
        simp [Text.bare, Text.commands, hc]
      rw [scan_other (by simp [hc]) (by simp [hc]), hb, ← Text.rank_succ_of_none hx hc]
      exact ih hr' hp ha
    | some c =>
      have hn : code.CommandAt n := ⟨x, c, hx, hc⟩
      have hb : Text.bare (x :: rest) = c.codePoint :: Text.bare rest := by
        simp [Text.bare, Text.commands, Text.ofCommands, hc]
      rw [hb]
      by_cases hs : c = .loopStart
      · subst hs
        rw [scan_start hc, scan_start (Command.ofCodePoint?_codePoint _), ← hn.rank_succ,
          ← List.map_cons]
        refine ih hr' (fun s hs => ?_) ha
        rcases List.mem_cons.mp hs with rfl | hs
        · exact hn
        · exact hp s hs
      · by_cases he : c = .loopEnd
        · subst he
          cases pending with
          | nil =>
            rw [scan_end_nil hc, List.map_nil, scan_end_nil (Command.ofCodePoint?_codePoint _)]
            exact ⟨rfl, rfl, n, hn, rfl, rfl⟩
          | cons s outer =>
            rw [scan_end_cons hc, List.map_cons, scan_end_cons (Command.ofCodePoint?_codePoint _),
              ← hn.rank_succ]
            exact ih hr' (fun s hs => hp s (List.mem_cons_of_mem _ hs))
              (ha.link (hp s List.mem_cons_self) hn)
        · rw [scan_other (by simp [hc, hs]) (by simp [hc, he]),
            scan_other (by simp [hs]) (by simp [he]), ← hn.rank_succ]
          exact ih hr' hp ha

/-- Comments change nothing about the brackets of a text but their positions. -/
theorem resolve_bare (code : Text) :
    SameAnswer code (resolve code) (resolve code.bare) := by
  have h₀ : code.rank 0 = 0 := by simp [Text.rank, Text.commands]
  have hp : ∀ s ∈ ([] : List Nat), code.CommandAt s := by simp
  have h := scan_bare (n := 0) (List.drop_zero (l := code)) hp (agree_empty code)
  rwa [h₀, List.map_nil] at h

end JumpTable

end Brainfuck
