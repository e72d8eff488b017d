import Brainfuck.Proofs.Bracket.Resolve

/-! The table of a program is its bracket matching: a program has a table exactly if its brackets
balance, and the table leads from every bracket to its partner, from everything else nowhere, and
twice back to where one was. -/

namespace Brainfuck.JumpTable

/-- The table pairs the brackets of `code` as they nest. -/
structure Matches (t : JumpTable) (code : Text) : Prop where
  ends_size : t.ends.size = code.length
  starts_size : t.starts.size = code.length
  /-- A loop ends where the brackets from its start on first come out even. -/
  ends_of_startsAt : ∀ i, code.StartsAt i → ∃ j : Nat, t.ends[i]? = some (some (j : Int)) ∧
    IsLeast {k | i < k ∧ (code.segment i k).startCount = (code.segment i k).endCount} j ∧
    code.EndsAt j ∧ t.starts[j]? = some (some (i : Int))
  starts_of_endsAt : ∀ j, code.EndsAt j → ∃ i : Nat, t.starts[j]? = some (some (i : Int)) ∧
    i < j ∧ code.StartsAt i ∧ t.ends[i]? = some (some (j : Int))
  ends_of_not_startsAt : ∀ i < code.length, ¬ code.StartsAt i → t.ends[i]? = some none
  starts_of_not_endsAt : ∀ i < code.length, ¬ code.EndsAt i → t.starts[i]? = some none
  /-- Of two loops the later one follows the other or lies inside it. -/
  nested : ∀ (i i' : Nat) (j j' : Int), t.ends[i]? = some (some j) →
    t.ends[i']? = some (some j') → i < i' → j < i' ∨ j' < j
  pairs_eq : t.pairs = code.startCount
  isSome_partner? : ∀ p : Int, (t.partner? p).isSome ↔
    0 ≤ p ∧ p < code.length ∧ (code.StartsAt p.toNat ∨ code.EndsAt p.toNat)
  partner?_partner? : ∀ p q : Int, t.partner? p = some q → t.partner? q = some p

variable {code : Text} {t : JumpTable} {i j : Nat}

namespace Holds

theorem ends_of_not_startsAt (h : t.Holds code code.length) (hi : i < code.length)
    (hs : ¬ code.StartsAt i) : t.ends[i]? = some none := by
  have hi' : i < t.ends.size := h.ends_size ▸ hi
  cases hx : t.ends[i] with
  | none => rw [Array.getElem?_eq_getElem hi', hx]
  | some x =>
    obtain ⟨j, -, -, he⟩ := (h.ends_iff i x).mp (by rw [Array.getElem?_eq_getElem hi', hx])
    exact absurd he.startsAt hs

theorem starts_of_not_endsAt (h : t.Holds code code.length) (hj : j < code.length)
    (he : ¬ code.EndsAt j) : t.starts[j]? = some none := by
  have hj' : j < t.starts.size := h.starts_size ▸ hj
  cases hx : t.starts[j] with
  | none => rw [Array.getElem?_eq_getElem hj', hx]
  | some x =>
    obtain ⟨-, i, -, hi⟩ := (h.starts_iff j x).mp (by rw [Array.getElem?_eq_getElem hj', hx])
    exact absurd hi.endsAt he

/-- Loops are counted by their starts. -/
theorem pairs_eq (h : t.Holds code code.length) (hb : code.Balanced) :
    t.pairs = code.startCount := by
  have hm : t.ends.toList.map Option.isSome =
      code.map (fun c => c == Command.loopStart.codePoint) := by
    apply List.ext_getElem?
    intro i
    rw [List.getElem?_map, List.getElem?_map, Array.getElem?_toList]
    by_cases hs : code.StartsAt i
    · obtain ⟨j, he⟩ := hb.exists_encloses_of_startsAt hs
      rw [h.ends_of_encloses he, hs]
      simp
    · by_cases hi : i < code.length
      · rw [h.ends_of_not_startsAt hi hs]
        rw [Text.StartsAt, List.getElem?_eq_getElem hi, Option.some_inj] at hs
        simp [List.getElem?_eq_getElem hi, hs]
      · rw [Array.getElem?_eq_none (by rw [h.ends_size]; omega),
          List.getElem?_eq_none (by omega)]
        rfl
  calc t.pairs = (t.ends.toList.map Option.isSome).countP id := by
        rw [List.countP_map, pairs, ← Array.countP_toList]
        rfl
    _ = code.startCount := by
        rw [hm, List.countP_map]
        rfl

theorem partner?_eq_some (h : t.Holds code code.length) {p q : Int} :
    t.partner? p = some q ↔
      ∃ i j : Nat, code.Encloses i j ∧ (p = i ∧ q = j ∨ p = j ∧ q = i) := by
  constructor
  · intro hp
    rw [partner?] at hp
    split at hp
    case isFalse => simp at hp
    case isTrue hr =>
      rw [Option.or_eq_some_iff] at hp
      simp only [Option.join_eq_some_iff] at hp
      rcases hp with hx | ⟨-, hx⟩
      · obtain ⟨j, -, rfl, he⟩ := (h.ends_iff _ q).mp hx
        exact ⟨p.toNat, j, he, .inl ⟨by omega, rfl⟩⟩
      · obtain ⟨-, i, rfl, he⟩ := (h.starts_iff _ q).mp hx
        exact ⟨i, p.toNat, he, .inr ⟨by omega, rfl⟩⟩
  · rintro ⟨i, j, he, ⟨rfl, rfl⟩ | ⟨rfl, rfl⟩⟩
    · have hi := he.startsAt.lt
      rw [partner?, if_pos ⟨by omega, by rw [length, h.ends_size]; omega⟩, Int.toNat_natCast,
        h.ends_of_encloses he]
      rfl
    · have hj := he.endsAt.lt
      have hs : ¬ code.StartsAt j := fun hs => hs.not_endsAt he.endsAt
      rw [partner?, if_pos ⟨by omega, by rw [length, h.ends_size]; omega⟩, Int.toNat_natCast,
        h.ends_of_not_startsAt hj hs, h.starts_of_encloses he]
      rfl

theorem matches_code (h : t.Holds code code.length) (hb : code.Balanced) : t.Matches code where
  ends_size := h.ends_size
  starts_size := h.starts_size
  ends_of_startsAt i hi := by
    obtain ⟨j, he⟩ := hb.exists_encloses_of_startsAt hi
    exact ⟨j, h.ends_of_encloses he, he.isLeast, he.endsAt, h.starts_of_encloses he⟩
  starts_of_endsAt j hj := by
    obtain ⟨i, he⟩ := hb.exists_encloses_of_endsAt hj
    exact ⟨i, h.starts_of_encloses he, he.lt, he.startsAt, h.ends_of_encloses he⟩
  ends_of_not_startsAt _ hi hs := h.ends_of_not_startsAt hi hs
  starts_of_not_endsAt _ hj he := h.starts_of_not_endsAt hj he
  nested i i' x x' hx hx' hi := by
    obtain ⟨j, -, rfl, he⟩ := (h.ends_iff i x).mp hx
    obtain ⟨j', -, rfl, he'⟩ := (h.ends_iff i' x').mp hx'
    have := he.lt_or_lt he' hi
    omega
  pairs_eq := h.pairs_eq hb
  isSome_partner? p := by
    constructor
    · intro hp
      obtain ⟨q, hq⟩ := Option.isSome_iff_exists.mp hp
      obtain ⟨i, j, he, ⟨rfl, rfl⟩ | ⟨rfl, rfl⟩⟩ := h.partner?_eq_some.mp hq
      · have := he.startsAt.lt
        exact ⟨by omega, by omega, .inl he.startsAt⟩
      · have := he.endsAt.lt
        exact ⟨by omega, by omega, .inr he.endsAt⟩
    · rintro ⟨h₀, -, hs | he⟩
      · obtain ⟨j, he⟩ := hb.exists_encloses_of_startsAt hs
        exact Option.isSome_iff_exists.mpr
          ⟨j, h.partner?_eq_some.mpr ⟨_, j, he, .inl ⟨by omega, rfl⟩⟩⟩
      · obtain ⟨i, he⟩ := hb.exists_encloses_of_endsAt he
        exact Option.isSome_iff_exists.mpr
          ⟨i, h.partner?_eq_some.mpr ⟨i, _, he, .inr ⟨by omega, rfl⟩⟩⟩
  partner?_partner? p q hp := by
    obtain ⟨i, j, he, hpq⟩ := h.partner?_eq_some.mp hp
    exact h.partner?_eq_some.mpr ⟨i, j, he, by tauto⟩

end Holds

/-- A program has a jump table exactly if its brackets balance, and the table is the matching of
its brackets. -/
theorem resolve_matches (code : Text) :
    ((∃ t, resolve code = .ok t) ↔ code.Balanced) ∧
      ∀ t, resolve code = .ok t → t.Matches code :=
  ⟨exists_resolve_iff, fun _ h => (holds_of_resolve h).matches_code (balanced_of_resolve h)⟩

/-- Nested and neighbouring loops among comments. -/
theorem resolve_matches_nested :
    Matches ⟨#[none, some 5, none, some 4, none, none, some 7, none],
      #[none, none, none, none, some 3, some 1, none, some 6]⟩ (Text.ofString "a[+[]][]") :=
  (resolve_matches (Text.ofString "a[+[]][]")).2 _ rfl

end Brainfuck.JumpTable
