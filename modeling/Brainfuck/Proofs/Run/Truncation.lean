import Brainfuck.Proofs.Bracket.Append
import Brainfuck.Proofs.Bracket.Unmatched
import Brainfuck.Proofs.Collector.Filter
import Brainfuck.Proofs.Settings.Valid
import Brainfuck.Run

/-! Programs cut short. A cut through a program whose brackets match takes away the ends of loops
and never a start that an end before the cut needs. So what is kept either has brackets that match,
and then the first slots of the table, or it has loops that are never closed: those that the cut
goes through. -/

namespace Brainfuck

namespace Text

variable {t : Text} {i k : Nat}

theorem height_take (t : Text) (h : i ≤ k) : height (t.take k) i = t.height i := by
  simp [height, List.take_take, Nat.min_eq_left h]

theorem startsAt_take_iff : StartsAt (t.take k) i ↔ i < k ∧ t.StartsAt i := by
  unfold StartsAt
  rw [List.getElem?_take]
  split_ifs with h <;> simp [h]

theorem Balanced.height_take_nonneg (h : t.Balanced) (k : Nat) :
    ∀ n ≤ (t.take k).length, 0 ≤ height (t.take k) n := by
  intro n hn
  rw [List.length_take] at hn
  rw [height_take t (by omega)]
  exact (balanced_iff_height.mp h).1 n (by omega)

theorem Balanced.take_iff (h : t.Balanced) :
    Balanced (t.take k) ↔ startCount (t.take k) = endCount (t.take k) := by
  rw [balanced_iff_height, height_length]
  constructor
  · rintro ⟨-, heq⟩
    omega
  · intro heq
    exact ⟨h.height_take_nonneg k, by omega⟩

/-- What follows a balanced beginning of a balanced text is balanced. -/
theorem Balanced.drop (h : t.Balanced) (hk : Balanced (t.take k)) : Balanced (t.drop k) := by
  have hheight : ∀ n, height (t.drop k) n = t.height ((t.take k).length + n) := by
    intro n
    rw [← hk.height_append (t.drop k) n, List.take_append_drop]
  obtain ⟨h₀, h₁⟩ := balanced_iff_height.mp h
  have hsum : (t.take k).length + (t.drop k).length = t.length := by
    rw [← List.length_append, List.take_append_drop]
  refine balanced_iff_height.mpr ⟨fun n hn => ?_, ?_⟩
  · rw [hheight]
    exact h₀ _ (by omega)
  · rw [hheight, hsum, h₁]

/-- The loops that a cut leaves open are those that it goes through. -/
theorem Balanced.neverClosed_take_iff (h : t.Balanced) :
    NeverClosed (t.take k) i ↔ i < k ∧ ∃ j, k ≤ j ∧ t.Encloses i j := by
  rw [neverClosed_iff_openAt]
  constructor
  · intro ho
    obtain ⟨hi, hs⟩ := startsAt_take_iff.mp ho.startsAt
    obtain ⟨j, he⟩ := h.exists_encloses_of_startsAt hs
    refine ⟨hi, j, ?_, he⟩
    -- an end before the cut would have brought the height back down
    by_contra hj
    have hij := he.lt
    have hlt := he.endsAt.lt
    have habove := ho.above (j + 1) (by omega) (by rw [List.length_take]; omega)
    rw [height_take t hi.le, height_take t (by omega), he.height_eq] at habove
    omega
  · rintro ⟨hi, j, hj, he⟩
    have hlt := he.endsAt.lt
    have hl : (t.take k).length = k := by
      rw [List.length_take]
      omega
    rw [hl]
    refine ⟨hi, startsAt_take_iff.mpr ⟨hi, he.startsAt⟩, fun n h₁ h₂ => ?_⟩
    rw [height_take t hi.le, height_take t h₂]
    exact he.above n h₁ (by omega)

end Text

namespace JumpTable

/-- The slots of the first `k` positions. -/
def take (t : JumpTable) (k : Nat) : JumpTable := ⟨t.ends.take k, t.starts.take k⟩

variable {code : Text} {t : JumpTable} {k : Nat}

/-- The slots of a text come first in the table of a longer one. -/
theorem take_append {u v : JumpTable} (he : u.ends.size = k) (hs : u.starts.size = k) :
    (u.append v).take k = u := by
  have hslots : ∀ a b : Array (Option Int), a.size = k → (a ++ b).take k = a := by
    rintro a b rfl
    simp
  rw [take, append, hslots _ _ he, hslots _ _ hs]

theorem take_of_size_le (he : t.ends.size ≤ k) (hs : t.starts.size ≤ k) : t.take k = t := by
  rw [take, Array.take_eq_extract, Array.take_eq_extract, Array.extract_eq_self_of_le he,
    Array.extract_eq_self_of_le hs]

/-- A beginning whose brackets match has the beginning of the table. -/
theorem resolve_take_of_balanced (h : resolve code = .ok t) (hk : Text.Balanced (code.take k)) :
    resolve (code.take k) = .ok (t.take k) := by
  have ht := holds_of_resolve h
  rcases Nat.lt_or_ge code.length k with hlt | hle
  · have he := ht.ends_size
    have hs := ht.starts_size
    rw [List.take_of_length_le hlt.le, take_of_size_le (by omega) (by omega), h]
  · obtain ⟨u, hu⟩ := exists_resolve_iff.mpr hk
    obtain ⟨v, hv⟩ := exists_resolve_iff.mpr ((balanced_of_resolve h).drop hk)
    have happend := resolve_append hu hv
    rw [List.take_append_drop, h] at happend
    have hl : (code.take k).length = k := List.length_take_of_le hle
    have he : u.ends.size = k := (holds_of_resolve hu).ends_size.trans hl
    have hs : u.starts.size = k := (holds_of_resolve hu).starts_size.trans hl
    rw [hu, Except.ok.inj happend, take_append he hs]

/-- The loops whose start comes before the cut at `k` and whose end, by the table, does not. -/
def cutLoops (t : JumpTable) (code : Text) (k : Nat) : Set Nat :=
  {i | i < k ∧ code.StartsAt i ∧ ∃ j : Int, t.ends[i]? = some (some j) ∧ k ≤ j}

theorem setOf_neverClosed_take (h : resolve code = .ok t) (k : Nat) :
    {i | Text.NeverClosed (code.take k) i} = t.cutLoops code k := by
  have ht := holds_of_resolve h
  ext i
  rw [Set.mem_ofPred_eq, (balanced_of_resolve h).neverClosed_take_iff]
  constructor
  · rintro ⟨hi, j, hj, he⟩
    exact ⟨hi, he.startsAt, j, ht.ends_of_encloses he, Int.ofNat_le.mpr hj⟩
  · rintro ⟨hi, -, x, hx, hj⟩
    obtain ⟨j, -, rfl, he⟩ := (ht.ends_iff i x).mp hx
    exact ⟨hi, j, Int.ofNat_le.mp hj, he⟩

/-- A beginning whose brackets do not match is blamed for the last loop that is cut through. -/
theorem resolve_take_of_ne (h : resolve code = .ok t)
    (hne : Text.startCount (code.take k) ≠ Text.endCount (code.take k)) :
    ∃ n : Nat, resolve (code.take k) = .error (.unclosedLoop (code.take k) n
        (Text.startCount (code.take k) - Text.endCount (code.take k))) ∧
      IsGreatest (t.cutLoops code k) n := by
  have hempty : Text.overclosed (code.take k) = ∅ :=
    Text.overclosed_eq_empty_iff.mpr ((balanced_of_resolve h).height_take_nonneg k)
  have hle := Text.endCount_le_iff_height.mpr ((balanced_of_resolve h).height_take_nonneg k)
    (code.take k) List.prefix_rfl
  obtain ⟨c, p, u, hr⟩ := exists_unclosed_iff.mpr ⟨hempty, by omega⟩
  obtain ⟨rfl, -, rfl, -, n, rfl, hn⟩ := unclosed_of_resolve hr
  rw [setOf_neverClosed_take h] at hn
  exact ⟨n, hr, hn⟩

end JumpTable

/-! ### Loading -/

/-- Without strictness a program is loaded from as many commands as there may be. -/
theorem load_lenient {settings : Settings} (hv : settings.Valid) (hs : settings.strict = false)
    (source : Source) :
    ∃ p, p.text = source.codeElements.take settings.programMax.toNat ∧
      load source settings =
        ((JumpTable.resolve p.text).mapError Error.rejected).map fun t => (p, t) := by
  have hpos := hv.programMax_pos
  have hcapacity : 0 < settings.programMax.toNat := by omega
  obtain ⟨p, hp, htext, -⟩ := source.exists_program_lenient hcapacity
  rw [Int.toNat_of_nonneg hpos.le] at hp
  refine ⟨p, htext, ?_⟩
  rw [load, hv.validate_eq]
  simp only [bind, Except.bind, hs, hp]
  cases JumpTable.resolve p.text <;> rfl

/-- The answer to a program with the table `t` of which the first `k` commands are kept. -/
structure Truncates (code : Text) (t : JumpTable) (k : Nat)
    (answer : Except Error (Program × JumpTable)) : Prop where
  /-- No loop end is without a start. -/
  not_unopened : ∀ c p, answer ≠ .error (.rejected (.unopenedLoop c p))
  /-- The program is accepted if as many loop ends are kept as starts. -/
  accepted_iff : (∃ p u, answer = .ok (p, u)) ↔
    Text.startCount (code.take k) = Text.endCount (code.take k)
  /-- Its table is then the table of the whole, up to the cut. -/
  accepted_eq : ∀ p u, answer = .ok (p, u) → p.text = code.take k ∧ u = t.take k
  /-- Otherwise the last loop that the cut goes through is reported, with the number of them. -/
  unclosed : Text.startCount (code.take k) ≠ Text.endCount (code.take k) →
    ∃ n : Nat, answer = .error (.rejected (.unclosedLoop (code.take k) n
        (Text.startCount (code.take k) - Text.endCount (code.take k)))) ∧
      IsGreatest (t.cutLoops code k) n

/-- A program with matching brackets that is cut short can only have loops left open. -/
theorem load_truncates (source : Source) (settings : Settings) (hv : settings.Valid)
    (hs : settings.strict = false) (t : JumpTable)
    (h : JumpTable.resolve source.codeElements = .ok t) :
    Truncates source.codeElements t settings.programMax.toNat (load source settings) := by
  obtain ⟨p, htext, hload⟩ := load_lenient hv hs source
  rw [hload, htext]
  by_cases hc : Text.startCount (source.codeElements.take settings.programMax.toNat) =
      Text.endCount (source.codeElements.take settings.programMax.toNat)
  · have hb := (JumpTable.balanced_of_resolve h).take_iff.mpr hc
    rw [JumpTable.resolve_take_of_balanced h hb]
    refine ⟨nofun, ⟨fun _ => hc, fun _ => ⟨p, _, rfl⟩⟩, fun q u hq => ?_, fun hne => absurd hc hne⟩
    obtain ⟨rfl, rfl⟩ := Prod.mk.inj (Except.ok.inj hq)
    exact ⟨htext, rfl⟩
  · obtain ⟨n, hr, hn⟩ := JumpTable.resolve_take_of_ne h hc
    rw [hr]
    refine ⟨nofun, ⟨nofun, fun heq => absurd heq hc⟩, nofun, fun _ => ⟨n, rfl, hn⟩⟩

/-- Of four loops inside and beside one another the cut goes through two. -/
theorem load_truncates_nested :
    load (.text (Text.ofString "[-[+][é>[.]]]")) { programMax := 10 } =
      .error (.rejected (.unclosedLoop (Text.ofString "[-[+][>[.]") 5 2)) ∧
    IsGreatest (JumpTable.cutLoops ⟨#[some 11, none, some 4, none, none, some 10, none, some 9,
      none, none, none, none], #[none, none, none, none, some 2, none, none, none, none, some 7,
      some 5, some 0]⟩ (Text.ofString "[-[+][>[.]]]") 10) 5 := by
  obtain ⟨n, hload, hn⟩ := (load_truncates (.text (Text.ofString "[-[+][é>[.]]]"))
    { programMax := 10 } ⟨by decide, by decide⟩ rfl _ rfl).unclosed (by decide)
  have hanswer : load (.text (Text.ofString "[-[+][é>[.]]]")) { programMax := 10 } =
      .error (.rejected (.unclosedLoop (Text.ofString "[-[+][>[.]") 5 2)) := by decide +kernel
  rw [hanswer, Except.error.injEq, Error.rejected.injEq, Rejection.unclosedLoop.injEq] at hload
  obtain rfl : n = 5 := by omega
  exact ⟨hanswer, hn⟩

end Brainfuck
