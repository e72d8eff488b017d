import Brainfuck.Text.Numeral
import Mathlib.Data.List.Forall2
import Mathlib.Data.List.TakeWhile
import Mathlib.Data.Nat.Digits.Defs

/-! The grammar of numerals. A numeral is whitespace, at most one sign, groups of decimal digits
with an underscore between neighbours, and whitespace; it denotes the number that its digits spell
in base ten. Reading accepts exactly these texts, and so every decimal form reads back, with more
zeros in front, underscores inside and whitespace around it. -/

namespace Brainfuck

namespace CodePoint

/-- The code point is the decimal digit `d` of some script. -/
def Denotes (c : CodePoint) (d : Nat) : Prop :=
  ∃ z ∈ digitZeros, c.value = z + d ∧ d < 10

variable {c : CodePoint} {d : Nat}

/-- The runs of digits do not overlap. -/
theorem eq_of_digitZeros :
    ∀ y ∈ digitZeros, ∀ z ∈ digitZeros, y < z + 10 → z < y + 10 → y = z := by
  decide +kernel

theorem digit?_eq_some_iff : c.digit? = some d ↔ c.Denotes d := by
  rw [digit?, Option.map_eq_some_iff]
  constructor
  · rintro ⟨z, hfind, rfl⟩
    have hp := List.find?_some hfind
    simp only [Bool.and_eq_true, decide_eq_true_eq] at hp
    exact ⟨z, List.mem_of_find?_eq_some hfind, by omega, by omega⟩
  · rintro ⟨z, hmem, hv, hd⟩
    cases hfind : digitZeros.find? fun y => y ≤ c.value && c.value < y + 10 with
    | none =>
      have := List.find?_eq_none.mp hfind z hmem
      simp only [Bool.and_eq_true, decide_eq_true_eq] at this
      omega
    | some found =>
      have hp := List.find?_some hfind
      simp only [Bool.and_eq_true, decide_eq_true_eq] at hp
      have := eq_of_digitZeros found (List.mem_of_find?_eq_some hfind) z hmem (by omega) (by omega)
      exact ⟨found, rfl, by omega⟩

instance (c : CodePoint) (d : Nat) : Decidable (c.Denotes d) :=
  decidable_of_iff _ digit?_eq_some_iff

/-- Digits lie between the whitespace. -/
theorem digitZeros_between : ∀ z ∈ digitZeros,
    (0x20 < z ∧ z + 10 ≤ 0x85) ∨ (0xA0 < z ∧ z + 10 ≤ 0x1680) ∨
      (0x1680 < z ∧ z + 10 ≤ 0x2000) ∨ 0x3000 < z := by
  decide +kernel

theorem Denotes.not_isWideSpace (h : c.Denotes d) : c.isWideSpace = false := by
  obtain ⟨z, hmem, hv, hd⟩ := h
  have := digitZeros_between z hmem
  by_contra hspace
  simp only [isWideSpace, isSpace, Bool.not_eq_false, Bool.or_eq_true, Bool.and_eq_true,
    decide_eq_true_eq, beq_iff_eq] at hspace
  omega

theorem Denotes.not_isSpace (h : c.Denotes d) : c.isSpace = false :=
  (Bool.or_eq_false_iff.mp h.not_isWideSpace).1

end CodePoint

namespace Text

variable {p : CodePoint → Bool} {a b body : Text}

theorem dropWhile_append {s : Text} (ha : ∀ c ∈ a, p c = true) (hs : ∀ c ∈ s.head?, p c = false) :
    (a ++ s).dropWhile p = s := by
  rw [List.dropWhile_append_of_pos ha]
  cases s with
  | nil => rfl
  | cons c s => exact List.dropWhile_cons_of_neg (by simp [hs c rfl])

theorem exists_trim (p : CodePoint → Bool) (t : Text) :
    ∃ a b, t = a ++ t.trim p ++ b ∧ (∀ c ∈ a, p c = true) ∧ ∀ c ∈ b, p c = true := by
  refine ⟨t.takeWhile p, ((t.dropWhile p).reverse.takeWhile p).reverse, ?_,
    fun c => List.mem_takeWhile_imp, fun c hc => List.mem_takeWhile_imp (List.mem_reverse.mp hc)⟩
  rw [List.append_assoc, trim, ← List.reverse_append, List.takeWhile_append_dropWhile,
    List.reverse_reverse, List.takeWhile_append_dropWhile]

theorem trim_append (ha : ∀ c ∈ a, p c = true) (hb : ∀ c ∈ b, p c = true) (hne : body ≠ [])
    (hbody : ∀ c ∈ body, p c = false) : Text.trim p (a ++ body ++ b) = body := by
  have hfront : (a ++ body ++ b).dropWhile p = body ++ b := by
    rw [List.append_assoc]
    refine dropWhile_append ha fun c hc => hbody c ?_
    rw [List.head?_append_of_ne_nil _ hne] at hc
    exact List.mem_of_mem_head? hc
  have hback : (body ++ b).reverse.dropWhile p = body.reverse := by
    rw [List.reverse_append]
    refine dropWhile_append (fun c hc => hb c (List.mem_reverse.mp hc)) fun c hc => hbody c ?_
    exact List.mem_reverse.mp (List.mem_of_mem_head? hc)
  rw [trim, hfront, hback, List.reverse_reverse]

end Text

namespace Numeral

/-- Groups of digits, none of them empty, whose digits are `ds` in all. -/
structure Grouped (groups : List Text) (ds : List Nat) : Prop where
  ne_nil : groups ≠ []
  group_ne_nil : ∀ g ∈ groups, g ≠ []
  denotes : List.Forall₂ CodePoint.Denotes groups.flatten ds

/-- Groups of digits with an underscore between neighbours. -/
def joined (groups : List Text) : Text := Text.join [.ofChar '_'] groups

variable {c : CodePoint} {d : Nat} {ds : List Nat} {t g : Text} {gs groups : List Text}

theorem joined_singleton (g : Text) : joined [g] = g := by
  rw [joined, Text.join, List.intercalate_singleton]

theorem joined_cons (g : Text) (hgs : gs ≠ []) :
    joined (g :: gs) = g ++ .ofChar '_' :: joined gs := by
  obtain ⟨g', gs, rfl⟩ := List.exists_cons_of_ne_nil hgs
  rw [joined, Text.join, List.intercalate_cons_cons, List.append_assoc, List.singleton_append]
  rfl

theorem joined_cons_cons (c : CodePoint) (g : Text) (gs : List Text) :
    joined ((c :: g) :: gs) = c :: joined (g :: gs) := by
  by_cases hgs : gs = []
  · rw [hgs, joined_singleton, joined_singleton]
  · rw [joined_cons _ hgs, joined_cons _ hgs, List.cons_append]

theorem digit?_underscore : (CodePoint.ofChar '_').digit? = none := by decide

theorem digits?_singleton (h : c.Denotes d) : digits? [c] = some [d] := by
  simp [digits?, CodePoint.digit?_eq_some_iff.mpr h]

theorem digits?_cons (h : c.Denotes d) (ht : digits? t = some ds) :
    digits? (c :: t) = some (d :: ds) := by
  cases t with
  | nil => simp [digits?] at ht
  | cons c' t =>
    have hc : c' ≠ .ofChar '_' := by
      rintro rfl
      simp [digits?, digit?_underscore] at ht
    simp [digits?, CodePoint.digit?_eq_some_iff.mpr h, hc, ht]

theorem digits?_underscore (h : c.Denotes d) (ht : digits? t = some ds) :
    digits? (c :: .ofChar '_' :: t) = some (d :: ds) := by
  simp [digits?, CodePoint.digit?_eq_some_iff.mpr h, ht]

theorem Grouped.exists_cons (h : Grouped groups ds) :
    ∃ c g gs d ds', groups = (c :: g) :: gs ∧ ds = d :: ds' ∧ c.Denotes d ∧
      (∀ g' ∈ gs, g' ≠ []) ∧ List.Forall₂ CodePoint.Denotes (g ++ gs.flatten) ds' := by
  obtain ⟨hne, hgroups, hdigits⟩ := h
  obtain ⟨g, gs, rfl⟩ := List.exists_cons_of_ne_nil hne
  obtain ⟨c, g, rfl⟩ := List.exists_cons_of_ne_nil (hgroups g List.mem_cons_self)
  obtain ⟨d, ds', hd, hds, rfl⟩ := List.forall₂_cons_left_iff.mp hdigits
  exact ⟨c, g, gs, d, ds', rfl, rfl, hd, (List.forall_mem_cons.mp hgroups).2, hds⟩

theorem Grouped.digits?_joined (h : Grouped groups ds) : digits? (joined groups) = some ds := by
  induction ds generalizing groups with
  | nil =>
    obtain ⟨c, g, gs, d, ds', -, hds, -⟩ := h.exists_cons
    cases hds
  | cons d ds ih =>
    obtain ⟨c, g, gs, d, ds, rfl, ⟨rfl, rfl⟩, hc, hgs, hdigits⟩ := h.exists_cons
    -- behind the digit its group goes on, or the next group starts, or the numeral ends
    by_cases hg : g = []
    · subst hg
      by_cases hnext : gs = []
      · subst hnext
        obtain rfl : ds = [] := by simpa using hdigits
        rw [joined_singleton, digits?_singleton hc]
      · rw [joined_cons _ hnext, List.singleton_append]
        exact digits?_underscore hc (ih ⟨hnext, hgs, hdigits⟩)
    · rw [joined_cons_cons]
      exact digits?_cons hc (ih ⟨List.cons_ne_nil _ _, List.forall_mem_cons.mpr ⟨hg, hgs⟩, hdigits⟩)

theorem exists_grouped (h : digits? t = some ds) :
    ∃ groups, t = joined groups ∧ Grouped groups ds := by
  fun_induction digits? t generalizing ds with
  | case1 => simp at h
  | case2 c rest hc => simp at h
  | case3 c d hc =>
    obtain rfl := Option.some.inj h
    refine ⟨[[c]], (joined_singleton _).symm, by simp, by simp, ?_⟩
    simpa using CodePoint.digit?_eq_some_iff.mp hc
  | case4 c d rest hc ih =>
    obtain ⟨ds, hds, rfl⟩ := Option.map_eq_some_iff.mp h
    obtain ⟨gs, rfl, hne, hgs, hdigits⟩ := ih hds
    refine ⟨[c] :: gs, by rw [joined_cons _ hne, List.singleton_append], by simp, ?_, ?_⟩
    · exact List.forall_mem_cons.mpr ⟨by simp, hgs⟩
    · exact .cons (CodePoint.digit?_eq_some_iff.mp hc) hdigits
  | case5 c d c' rest hc hu ih =>
    obtain ⟨ds, hds, rfl⟩ := Option.map_eq_some_iff.mp h
    obtain ⟨groups, hjoined, hne, hgs, hdigits⟩ := ih hds
    obtain ⟨g, gs, rfl⟩ := List.exists_cons_of_ne_nil hne
    refine ⟨(c :: g) :: gs, by rw [joined_cons_cons, hjoined], by simp, ?_, ?_⟩
    · exact List.forall_mem_cons.mpr ⟨by simp, (List.forall_mem_cons.mp hgs).2⟩
    · exact .cons (CodePoint.digit?_eq_some_iff.mp hc) hdigits

theorem value_eq_ofDigits (ds : List Nat) : value ds = Nat.ofDigits 10 ds.reverse := by
  rw [value, Nat.ofDigits_eq_foldr, List.foldr_reverse]
  simp only [Nat.cast_id, Nat.add_comm]

theorem natural?_eq_some_iff {n : Nat} : natural? t = some n ↔
    ∃ groups ds, t = joined groups ∧ Grouped groups ds ∧ ds.length ≤ 4300 ∧
      n = Nat.ofDigits 10 ds.reverse := by
  constructor
  · intro h
    rw [natural?] at h
    cases hds : digits? t with
    | none => simp [hds] at h
    | some ds =>
      simp only [hds] at h
      split_ifs at h with hlength
      obtain ⟨groups, hjoined, hgrouped⟩ := exists_grouped hds
      exact ⟨groups, ds, hjoined, hgrouped, hlength, by rw [← Option.some.inj h, value_eq_ofDigits]⟩
  · rintro ⟨groups, ds, rfl, hgrouped, hlength, rfl⟩
    rw [natural?, hgrouped.digits?_joined, ← value_eq_ofDigits]
    exact if_pos hlength

/-- At most one sign, and the factor it stands for. -/
inductive Signed : Text → Int → Prop where
  | plain : Signed [] 1
  | plus : Signed [.ofChar '+'] 1
  | minus : Signed [.ofChar '-'] (-1)

theorem ne_of_natural? {x : CodePoint} {n : Nat} (hx : x.digit? = none)
    (h : natural? (c :: t) = some n) : c ≠ x := by
  rintro rfl
  simp [natural?, digits?, hx] at h

theorem signed?_eq_some_iff {v : Int} : signed? t = some v ↔
    ∃ sign factor body n, t = sign ++ body ∧ Signed sign factor ∧ natural? body = some n ∧
      v = factor * n := by
  constructor
  · intro h
    cases t with
    | nil => simp [signed?] at h
    | cons c rest =>
      rw [signed?] at h
      split_ifs at h with hminus hplus
      · obtain ⟨k, hk, rfl⟩ := Option.map_eq_some_iff.mp h
        obtain ⟨n, hn, hnk⟩ := Option.bind_eq_some_iff.mp hk
        obtain rfl : (n : Int) = k := Option.some.inj hnk
        exact ⟨[c], -1, rest, n, rfl, hminus ▸ .minus, hn, (neg_one_mul _).symm⟩
      · obtain ⟨n, hn, rfl⟩ := Option.map_eq_some_iff.mp h
        exact ⟨[c], 1, rest, n, rfl, hplus ▸ .plus, hn, (one_mul _).symm⟩
      · obtain ⟨n, hn, rfl⟩ := Option.map_eq_some_iff.mp h
        exact ⟨[], 1, c :: rest, n, rfl, .plain, hn, (one_mul _).symm⟩
  · rintro ⟨sign, factor, body, n, rfl, hsign, hn, rfl⟩
    cases hsign with
    | plain =>
      cases body with
      | nil => simp [natural?, digits?] at hn
      | cons c rest =>
        -- the first code point is a digit, so it is not taken for a sign
        have hminus : c ≠ .ofChar '-' := ne_of_natural? (by decide) hn
        have hplus : c ≠ .ofChar '+' := ne_of_natural? (by decide) hn
        rw [List.nil_append, signed?, if_neg hminus, if_neg hplus, hn, one_mul]
        rfl
    | plus =>
      rw [List.singleton_append, signed?, if_neg (by decide), if_pos rfl, hn, one_mul]
      rfl
    | minus =>
      rw [List.singleton_append, signed?, if_pos rfl, hn, neg_one_mul]
      rfl

/-- The text is a numeral for the integer: at most one sign and groups of digits, with whitespace
around them. -/
inductive Denotes : Text → Int → Prop where
  | mk {pad sign pad' : Text} {factor : Int} {groups : List Text} {ds : List Nat}
    (hpad : ∀ c ∈ pad, c.isSpace = true) (hsign : Signed sign factor)
    (hgroups : Grouped groups ds) (hlength : ds.length ≤ 4300)
    (hpad' : ∀ c ∈ pad', c.isSpace = true) :
    Denotes (pad ++ (sign ++ joined groups) ++ pad') (factor * (Nat.ofDigits 10 ds.reverse : Nat))

theorem mem_joined (h : c ∈ joined groups) : c = .ofChar '_' ∨ c ∈ groups.flatten := by
  induction groups with
  | nil => exact .inr h
  | cons g gs ih =>
    by_cases hgs : gs = []
    · rw [hgs, joined_singleton] at h
      exact .inr (List.mem_append_left _ h)
    · rw [joined_cons _ hgs, List.mem_append, List.mem_cons] at h
      rcases h with h | h | h
      · exact .inr (List.mem_append_left _ h)
      · exact .inl h
      · exact (ih h).imp_right (List.mem_append_right _)

theorem Grouped.exists_denotes (h : Grouped groups ds) (hc : c ∈ groups.flatten) :
    ∃ d, c.Denotes d := by
  obtain ⟨i, hi, rfl⟩ := List.mem_iff_getElem.mp hc
  exact ⟨_, h.denotes.get hi (h.denotes.length_eq ▸ hi)⟩

/-- There is no whitespace between the sign and the last digit. -/
theorem not_isSpace_of_mem {sign : Text} {factor : Int} (hsign : Signed sign factor)
    (hgroups : Grouped groups ds) (hc : c ∈ sign ++ joined groups) : c.isSpace = false := by
  rcases List.mem_append.mp hc with h | h
  · cases hsign with
    | plain => cases h
    | plus =>
      rw [List.mem_singleton.mp h]
      decide
    | minus =>
      rw [List.mem_singleton.mp h]
      decide
  · rcases mem_joined h with rfl | h
    · decide
    · obtain ⟨d, hd⟩ := hgroups.exists_denotes h
      exact hd.not_isSpace

/-- Reading accepts numerals, and nothing else. -/
theorem parse?_eq_some_iff {v : Int} : parse? t = some v ↔ Denotes t v := by
  rw [parse?, signed?_eq_some_iff]
  constructor
  · rintro ⟨sign, factor, body, n, htrim, hsign, hn, rfl⟩
    obtain ⟨groups, ds, rfl, hgroups, hlength, rfl⟩ := natural?_eq_some_iff.mp hn
    obtain ⟨pad, pad', ht, hpad, hpad'⟩ := t.exists_trim CodePoint.isSpace
    rw [ht, htrim]
    exact .mk hpad hsign hgroups hlength hpad'
  · intro h
    cases h with
    | @mk pad sign pad' factor groups ds hpad hsign hgroups hlength hpad' =>
      obtain ⟨c, g, gs, -, -, rfl, -⟩ := hgroups.exists_cons
      refine ⟨sign, factor, joined ((c :: g) :: gs), _, Text.trim_append hpad hpad' ?_ ?_, hsign,
        natural?_eq_some_iff.mpr ⟨_, ds, rfl, hgroups, hlength, rfl⟩, rfl⟩
      · simp [joined_cons_cons]
      · exact fun c => not_isSpace_of_mem hsign hgroups

theorem Denotes.not_isBlank {v : Int} (h : Denotes t v) : t.isBlank = false := by
  obtain ⟨-, -, hgroups, -, -⟩ := h
  obtain ⟨c, g, gs, d, -, rfl, -, hd, -⟩ := hgroups.exists_cons
  exact List.all_eq_false.mpr ⟨c, by simp [joined_cons_cons], by simp [hd.not_isWideSpace]⟩

/-! ### Decimal forms -/

theorem denotes_ofChar {x : Char} (h : x.isDigit = true) :
    (CodePoint.ofChar x).Denotes (x.toNat - '0'.toNat) := by
  have hx : 48 ≤ x.toNat ∧ x.toNat ≤ 57 := by
    simpa [Char.isDigit, UInt32.le_iff_toNat_le] using h
  have h₀ : '0'.toNat = 48 := rfl
  exact ⟨0x30, by decide, by rw [CodePoint.value_ofChar]; omega, by omega⟩

/-- The digits of a decimal form spell its number. -/
theorem exists_digits_ofNat (n : Nat) :
    ∃ ds, List.Forall₂ CodePoint.Denotes (ofNat n) ds ∧ value ds = n := by
  refine ⟨(Nat.toDigits 10 n).map fun x => x.toNat - '0'.toNat, ?_, ?_⟩
  · rw [ofNat, List.forall₂_map_left_iff, List.forall₂_map_right_iff, List.forall₂_same]
    exact fun x hx => denotes_ofChar (Nat.isDigit_of_mem_toDigits (by decide) (by decide) hx)
  · rw [value, List.foldl_map, ← Nat.ofDigitChars_eq_foldl, Nat.ofDigitChars_ten_toDigits]

theorem value_replicate_zero_append (k : Nat) (ds : List Nat) :
    value (List.replicate k 0 ++ ds) = value ds := by
  induction k with
  | zero => rfl
  | succ k ih =>
    rw [List.replicate_succ, List.cons_append, ← ih]
    rfl

/-- The text is the decimal form of `n` with whitespace around it, zeros in front of its digits
and underscores between them. -/
inductive Respells (n : Int) : Text → Prop where
  | mk {pad sign zeros digits pad' : Text} {factor : Int} {groups : List Text}
    (hform : ofInt n = sign ++ digits) (hsign : Signed sign factor)
    (hdigits : ∀ c ∈ digits, c.isDigit = true) (hpad : ∀ c ∈ pad, c.isSpace = true)
    (hzeros : ∀ c ∈ zeros, c.Denotes 0) (hgroups : groups.flatten = zeros ++ digits)
    (hne : ∀ g ∈ groups, g ≠ []) (hlength : groups.flatten.length ≤ 4300)
    (hpad' : ∀ c ∈ pad', c.isSpace = true) :
    Respells n (pad ++ (sign ++ joined groups) ++ pad')

theorem isDigit_of_mem_ofNat {n : Nat} (h : c ∈ ofNat n) : c.isDigit = true := by
  obtain ⟨x, hx, rfl⟩ := List.mem_map.mp h
  have hd := denotes_ofChar (Nat.isDigit_of_mem_toDigits (by decide) (by decide) hx)
  rw [CodePoint.isDigit, CodePoint.digit?_eq_some_iff.mpr hd, Option.isSome_some]

/-- There is one way to take a decimal form apart into a sign and digits. -/
theorem natAbs_of_ofInt {n : Int} {sign digits : Text} {factor : Int}
    (hform : ofInt n = sign ++ digits) (hsign : Signed sign factor)
    (hdigits : ∀ c ∈ digits, c.isDigit = true) :
    digits = ofNat n.natAbs ∧ n = factor * n.natAbs := by
  cases n with
  | ofNat m =>
    have hall : ∀ c ∈ sign ++ digits, c.isDigit = true := by
      rw [← hform]
      exact fun c => isDigit_of_mem_ofNat
    cases hsign with
    | plain => exact ⟨hform.symm, (one_mul _).symm⟩
    | plus => exact absurd (hall _ List.mem_cons_self) (by decide)
    | minus => exact absurd (hall _ List.mem_cons_self) (by decide)
  | negSucc m =>
    cases hsign with
    | plain =>
      have hminus : CodePoint.ofChar '-' ∈ digits := by
        rw [← List.nil_append digits, ← hform]
        exact List.mem_cons_self
      exact absurd (hdigits _ hminus) (by decide)
    | plus => exact absurd (List.cons.inj hform).1 (by decide)
    | minus => exact ⟨(List.cons.inj hform).2.symm, by omega⟩

theorem Respells.denotes {n : Int} (h : Respells n t) : Denotes t n := by
  cases h with
  | @mk pad sign zeros digits pad' factor groups hform hsign hdigits hpad hzeros hgroups hne hlength
      hpad' =>
    obtain ⟨rfl, hn⟩ := natAbs_of_ofInt hform hsign hdigits
    obtain ⟨ds, hds, hvalue⟩ := exists_digits_ofNat n.natAbs
    have hgrouped : Grouped groups (List.replicate zeros.length 0 ++ ds) := by
      refine ⟨?_, hne, ?_⟩
      · rintro rfl
        have hnil : ofNat n.natAbs = [] := (List.append_eq_nil_iff.mp hgroups.symm).2
        simp [ofNat] at hnil
      · have hz : List.Forall₂ CodePoint.Denotes zeros (List.replicate zeros.length 0) := by
          rw [← List.map_const', List.forall₂_map_right_iff, List.forall₂_same]
          exact hzeros
        exact hgroups ▸ List.rel_append hz hds
    have hcount : (List.replicate zeros.length 0 ++ ds).length ≤ 4300 :=
      hgrouped.denotes.length_eq ▸ hlength
    have hd := Denotes.mk hpad hsign hgrouped hcount hpad'
    rw [← value_eq_ofDigits, value_replicate_zero_append, hvalue, ← hn] at hd
    exact hd

end Numeral

end Brainfuck
