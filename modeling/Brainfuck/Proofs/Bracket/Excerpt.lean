import Brainfuck.Memory
import Brainfuck.Program
import Brainfuck.Proofs.Bracket.Resolve

/-! What an excerpt shows. Its first line is the part of the program around a position, with an
ellipsis on each side where the program goes on, and the caret of its second line stands below
that position. The excerpt of a rejection points at the bracket that is blamed. -/

namespace Brainfuck

namespace Text

variable {t : Text} {n : Nat}

theorem take_min_length (t : Text) (m : Nat) : t.take (min t.length m) = t.take m :=
  List.take_eq_take_iff.mpr (by omega)

theorem slice_natCast (t : Text) (a b : Nat) :
    t.slice a b = (t.take b).drop (min t.length a) := by
  have hbound : ∀ m : Nat, bound t.length m = min t.length m := fun m => by
    rw [bound, if_neg (by omega), Int.toNat_natCast]
  rw [slice, hbound, hbound, take_min_length]

/-- A text around position `n`: `radius` code points on either side as far as there are any. -/
theorem exists_slice_around (hn : n < t.length) (radius : Nat) :
    ∃ (left before after right : Text) (c : CodePoint),
      t.slice (n - radius : Nat) (n + radius + 1 : Nat) = before ++ c :: after ∧
      t = left ++ (before ++ c :: after) ++ right ∧ left.length + before.length = n ∧
      before.length = min radius n ∧ after.length = min radius (t.length - 1 - n) := by
  have hcut : t.take (n + radius + 1) = t.take n ++ t[n] :: (t.drop (n + 1)).take radius := by
    rw [Nat.add_right_comm, List.take_add, List.take_succ_eq_append_getElem hn, List.append_assoc,
      List.singleton_append]
  have hslice : t.slice (n - radius : Nat) (n + radius + 1 : Nat) =
      (t.take n).drop (n - radius) ++ t[n] :: (t.drop (n + 1)).take radius := by
    rw [slice_natCast, hcut, min_eq_right (by omega),
      List.drop_append_of_le_length (by rw [List.length_take]; omega)]
  refine ⟨(t.take n).take (n - radius), (t.take n).drop (n - radius), (t.drop (n + 1)).take radius,
    t.drop (n + radius + 1), t[n], hslice, ?_, ?_, ?_, ?_⟩
  · rw [← List.append_assoc, List.take_append_drop, ← hcut, List.take_append_drop]
  · rw [← List.length_append, List.take_append_drop, List.length_take]
    omega
  · rw [List.length_drop, List.length_take]
    omega
  · rw [List.length_take, List.length_drop]
    omega

end Text

namespace Excerpt

/-- Two lines that show position `n` of `code` and up to `radius` code points on either side. -/
structure Shows (code : Text) (n radius : Nat) (shown marks : Text) : Prop where
  /-- Below the position is a caret, and before it are blanks alone. -/
  caret : ∃ column, marks = List.replicate column Text.blank ++ [.ofChar '^'] ∧
    shown[column]? = code[n]?
  /-- Above it is the code around the position, with an ellipsis where it is cut. -/
  part : ∃ (left before after right : Text) (c : CodePoint),
    code = left ++ (before ++ c :: after) ++ right ∧ left.length + before.length = n ∧
    before.length = min radius n ∧ after.length = min radius (code.length - 1 - n) ∧
    shown = indent ++ (if radius < n then ellipsis else []) ++ (before ++ c :: after) ++
      if n + radius + 1 < code.length then ellipsis else []

/-- The excerpt has two lines, and they show position `n` of `code`. -/
def PointsAt (code : Text) (n radius : Nat) (excerpt : Text) : Prop :=
  ∃ shown marks, excerpt.splitOn Text.newline = [shown, marks] ∧ Shows code n radius shown marks

/-- What stands in front of the code in the first line. -/
def lead (n radius : Nat) : Text := indent ++ if radius < n then ellipsis else []

/-- What stands behind the code in the first line. -/
def trail (code : Text) (n radius : Nat) : Text :=
  if n + radius + 1 < code.length then ellipsis else []

/-- The second line. -/
def marks (n radius : Nat) : Text :=
  List.replicate ((lead n radius).length + min radius n) Text.blank ++ [.ofChar '^']

variable {code : Text} {n : Nat}

theorem first_natCast (n radius : Nat) : first n radius = (n - radius : Nat) := by
  rw [first]
  omega

theorem indent_append_before (n radius : Nat) : indent ++ before n radius = lead n radius := by
  rw [before, first_natCast, lead]
  exact congrArg (indent ++ ·) (if_congr (by omega) rfl rfl)

theorem length_before_le (n radius : Nat) : (before n radius).length ≤ 3 := by
  rw [before]
  split <;> decide

/-- The caret is right behind the code before the position. -/
theorem column_natCast (n radius : Nat) :
    column n radius = ((before n radius).length + min radius n : Nat) := by
  rw [column, first_natCast]
  omega

theorem around_natCast (code : Text) (n radius : Nat) :
    around code n radius =
      (lead n radius ++ code.slice (n - radius : Nat) (n + radius + 1 : Nat) ++
        trail code n radius) ++ Text.newline :: marks n radius := by
  have hlast : min (code.length : Int) (n + radius + 1) =
      (min code.length (n + radius + 1) : Nat) := by
    omega
  have htrail : (if min (code.length : Int) (n + radius + 1) < code.length then ellipsis else []) =
      trail code n radius :=
    if_congr (by omega) rfl rfl
  have hslice : code.slice (n - radius : Nat) (min code.length (n + radius + 1) : Nat) =
      code.slice (n - radius : Nat) (n + radius + 1 : Nat) := by
    rw [Text.slice_natCast, Text.slice_natCast, Text.take_min_length]
  have hmarks : indent ++ List.replicate (column n radius).toNat Text.blank ++ [.ofChar '^'] =
      marks n radius := by
    rw [column_natCast, Int.toNat_natCast, indent, List.replicate_append_replicate, marks,
      ← indent_append_before, List.length_append, Nat.add_assoc]
    rfl
  simp only [around, htrail, indent_append_before, first_natCast, ← hmarks]
  rw [hlast, hslice]
  simp

theorem newline_notMem_lead (n radius : Nat) : Text.newline ∉ lead n radius := by
  rw [lead]
  split <;> decide

theorem newline_notMem_trail (code : Text) (n radius : Nat) :
    Text.newline ∉ trail code n radius := by
  rw [trail]
  split <;> decide

theorem newline_notMem_marks (n radius : Nat) : Text.newline ∉ marks n radius := by
  have hblank : Text.newline ≠ Text.blank := by decide
  have hcaret : Text.newline ≠ .ofChar '^' := by decide
  simp [marks, hblank, hcaret]

/-- The excerpt around a position of a code without line feeds points at that position. -/
theorem pointsAt_around (hcode : Text.newline ∉ code) (hn : n < code.length) (radius : Nat) :
    PointsAt code n radius (around code n radius) := by
  obtain ⟨left, before, after, right, c, hslice, hcut, hleft, hbefore, hafter⟩ :=
    Text.exists_slice_around hn radius
  have hpart : Text.newline ∉ before ++ c :: after := by
    intro h
    rw [hcut] at hcode
    exact hcode (List.mem_append_left right (List.mem_append_right left h))
  have hline : Text.newline ∉ lead n radius ++ (before ++ c :: after) ++ trail code n radius := by
    simp only [List.mem_append, not_or] at hpart ⊢
    exact ⟨⟨newline_notMem_lead n radius, hpart⟩, newline_notMem_trail code n radius⟩
  -- before the position are `left` and `before` in the code, `lead` and `before` in the line
  have hc : code[n]? = some c := by
    rw [hcut, ← hleft]
    simp
  refine ⟨lead n radius ++ (before ++ c :: after) ++ trail code n radius, marks n radius, ?_,
    ?_, ?_⟩
  · rw [around_natCast, hslice, List.splitOn_append_cons_self_of_not_mem hline,
      List.splitOn_eq_singleton (newline_notMem_marks n radius)]
  · refine ⟨_, rfl, ?_⟩
    rw [hc, ← hbefore]
    simp
  · exact ⟨left, before, after, right, c, hcut, hleft, hbefore, hafter, rfl⟩

/-- An excerpt can be made if the column of its caret is an offset and there is room for the blanks
before it. -/
theorem make_natCast {memory : Memory} (code : Text) (radius : Nat)
    (h : column n radius < Offset.limit) (hm : memory.holds (column n radius).toNat = true) :
    make memory code n radius = .ok (around code n radius) := by
  have h₀ : 0 ≤ column n radius := by
    rw [column_natCast]
    omega
  have hpos : 0 < Offset.limit := by decide
  have hwide : Offset.isWide (column n radius) = false := by
    rw [Offset.isWide, decide_eq_false (by omega), decide_eq_false (by omega), Bool.or_false]
  rw [make, Memory.reserve_of_holds hwide hm]
  rfl

/-- An ellipsis stands for code that is left out, so it moves the caret beyond the length of the
code by one column at most. -/
theorem column_le (hn : n < code.length) (radius : Nat) : column n radius ≤ code.length + 1 := by
  rw [column_natCast, before, first_natCast]
  split
  · rw [ellipsis, List.length_replicate]
    omega
  · rw [List.length_nil]
    omega

end Excerpt

/-- The rejection of a program says where it is at fault, and its excerpt points there: at a loop
end that closes nothing, or at a loop start that is not closed. -/
structure Rejection.PointsInto (r : Rejection) (code : Text) (n : Nat) (excerpt : Text) : Prop where
  place?_eq : r.place? = some ((n : Int), excerpt)
  make_eq : ∀ memory : Memory, memory.holds (Excerpt.column n 20).toNat = true →
    r.make memory = .ok r
  pointsAt : Excerpt.PointsAt code n 20 excerpt
  unopened : ∀ c p, r = .unopenedLoop c p → code[n]? = some (.ofChar ']')
  unclosed : ∀ c p u, r = .unclosedLoop c p u → code[n]? = some (.ofChar '[')

namespace JumpTable

variable {code : Text} {r : Rejection}

theorem exists_pointsInto (hcode : Text.newline ∉ code) (hr : resolve code = .error r) :
    ∃ n excerpt, r.PointsInto code n excerpt := by
  have hmake : ∀ (n : Nat) (memory : Memory), memory.holds (Excerpt.column n 20).toNat = true →
      Excerpt.make memory code n Excerpt.defaultRadius =
        .ok (Excerpt.around code n Excerpt.defaultRadius) := fun n memory hm => by
    refine Excerpt.make_natCast code 20 ?_ hm
    have := Excerpt.length_before_le n 20
    rw [Excerpt.column_natCast, Offset.limit]
    omega
  have hv := resolve_verdict code
  rw [hr] at hv
  cases r with
  | unclosedLoop c p u =>
    obtain ⟨rfl, -, -, n, rfl, ho, -⟩ := hv
    refine ⟨n, _, rfl, fun memory hm => ?_, Excerpt.pointsAt_around hcode ho.lt 20, nofun,
      fun _ _ _ _ => ho.startsAt⟩
    rw [Rejection.make, hmake n memory hm]
    rfl
  | unopenedLoop c p =>
    obtain ⟨rfl, n, rfl, he, -⟩ := hv
    refine ⟨n, _, rfl, fun memory hm => ?_, Excerpt.pointsAt_around hcode he.lt 20,
      fun _ _ _ => he, nofun⟩
    rw [Rejection.make, hmake n memory hm]
    rfl
  | tooLong k => exact hv.elim

end JumpTable

theorem Program.newline_notMem_text (p : Program) : Text.newline ∉ p.text := by
  intro h
  obtain ⟨c, -, hc⟩ := List.mem_map.mp h
  cases c <;> exact absurd hc (by decide)

namespace JumpTable

/-- The caret of a diagnostic points at the bracket that is blamed, and any excerpt shows the code
around the position it is made for. No excerpt fails that there is room for. -/
theorem excerpts_point :
    (∀ (code : Text) (r : Rejection), Text.newline ∉ code → resolve code = .error r →
      ∃ n excerpt, r.PointsInto code n excerpt) ∧
    (∀ (p : Program) (r : Rejection), resolve p.text = .error r →
      ∃ n excerpt, r.PointsInto p.text n excerpt) ∧
    ∀ (code : Text) (n radius : Nat), Text.newline ∉ code → n < code.length →
      Excerpt.PointsAt code n radius (Excerpt.around code n radius) ∧
      (code.length + 1 < Offset.limit → ∀ memory : Memory,
        memory.holds (Excerpt.column n radius).toNat = true →
        Excerpt.make memory code n radius = .ok (Excerpt.around code n radius)) := by
  refine ⟨fun code r => exists_pointsInto, fun p r => exists_pointsInto p.newline_notMem_text, ?_⟩
  intro code n radius hcode hn
  refine ⟨Excerpt.pointsAt_around hcode hn radius, fun hlimit memory hm => ?_⟩
  have := Excerpt.column_le hn radius
  exact Excerpt.make_natCast code radius (by omega) hm

/-- A loop end behind a whole loop, with code left out on both sides; a program whose only loop
stays open; an excerpt that reaches the end of the code but not its beginning. -/
theorem excerpts_point_cut :
    let code := Text.ofString "+++++++++++++++++++[]]é>>>>>>>>>>>>>>>>>>>>>"
    (∃ n excerpt, (Rejection.unopenedLoop code 21).PointsInto code n excerpt) ∧
    (∃ n excerpt, (Rejection.unclosedLoop (Text.ofString "[.") 0 1).PointsInto
      (Text.ofString "[.") n excerpt) ∧
    Excerpt.PointsAt (Text.ofString "ab]c") 2 1 (Text.ofString "  ...b]c\n      ^") ∧
    Excerpt.make (.upTo 9) (Text.ofString "ab]c") 2 1 =
      .ok (Text.ofString "  ...b]c\n      ^") := by
  obtain ⟨hresolve, hprogram, haround⟩ := excerpts_point
  refine ⟨hresolve _ _ (by decide) rfl, hprogram ⟨[.loopStart, .output], false, 2⟩ _ rfl, ?_⟩
  obtain ⟨hpoints, hmake⟩ := haround (Text.ofString "ab]c") 2 1 (by decide) (by decide)
  exact ⟨hpoints, hmake (by decide) (.upTo 9) (by decide)⟩

end JumpTable

end Brainfuck
