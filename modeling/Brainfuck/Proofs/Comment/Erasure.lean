import Brainfuck.Proofs.Comment.Brackets
import Brainfuck.Proofs.Machine.Safety

/-! Comments and runs. A comment changes only the position and the number of steps, so the run of
a text and the run of its commands go through the same machines at corresponding positions, the
former pausing at its comments. -/

namespace Brainfuck

/-- The machine at the corresponding position of the text without comments, less `k` steps. -/
def Config.erase (code : Text) (k : Nat) (c : Config) : Config :=
  { c with state := { c.state with
      position := code.rank c.state.position.toNat
      steps := c.state.steps - k } }

/-- The number of comments passed over in `n` steps. -/
def Image.comments (image : Image) : Nat → Config → Nat
  | 0, _ => 0
  | n + 1, c =>
    match image.step c with
    | .running d =>
      (if image.code[c.state.position.toNat]? = some none then 1 else 0) + image.comments n d
    | _ => 0

def Text.CommentAt (t : Text) (i : Nat) : Prop := t[i]?.map Command.ofCodePoint? = some none

instance (t : Text) (i : Nat) : Decidable (t.CommentAt i) := inferInstanceAs (Decidable (_ = _))

namespace Config

variable {code : Text} {c : Config} {p k : Nat}

theorem erase_eq_shift (hp : c.state.position = p) :
    c.erase code k = c.shift (code.rank p - p) (-k) := by
  simp only [erase, shift, hp, Int.toNat_natCast, Config.mk.injEq, State.mk.injEq, true_and,
    and_true]
  omega

theorem erase_start (code : Text) (s : State) (input : Input) (sink : Sink) :
    (start s input sink).erase code 0 = start s input sink := by
  simp [erase, start, Text.rank, Text.commands]

theorem erase_tick_goto (q : Nat) :
    (c.erase code k).tick.goto (code.rank q) = (c.tick.goto q).erase code k := by
  have hk : c.state.steps - k + 1 = c.state.steps + 1 - k := by omega
  simp [erase, tick, goto, hk]

end Config

namespace Image

variable {code : Text} {t t' : JumpTable} {size : Nat} {c d : Config} {p k n : Nat}
  {x : CodePoint} {o : Outcome}

theorem getElem?_code_ofTable (code : Text) (t : JumpTable) (p : Nat) :
    (ofTable code t).code[p]? = some none ↔ code.CommentAt p := by
  simp [ofTable, Text.CommentAt]

theorem comments_succ_of_comment (hd : (ofTable code t).step c = .running d)
    (hc : code.CommentAt c.state.position.toNat) :
    (ofTable code t).comments (n + 1) c = 1 + (ofTable code t).comments n d := by
  simp only [comments, hd, if_pos ((getElem?_code_ofTable code t _).mpr hc)]

theorem comments_succ_of_running (hd : (ofTable code t).step c = .running d)
    (hc : ¬ code.CommentAt c.state.position.toNat) :
    (ofTable code t).comments (n + 1) c = (ofTable code t).comments n d := by
  simp only [comments, hd, if_neg (mt (getElem?_code_ofTable code t _).mp hc), Nat.zero_add]

theorem comments_le (image : Image) (n : Nat) (c : Config) : image.comments n c ≤ n := by
  induction n generalizing c with
  | zero => exact le_rfl
  | succ n ih =>
    simp only [comments]
    split
    · rename_i d _
      have := ih d
      split <;> omega
    · omega

/-- A comment is passed over and does not show once comments are dropped. -/
theorem step_comment (h : c.Inside code size) (hc : code.CommentAt c.state.position.toNat) :
    (ofTable code t).step c = .running c.tick.next ∧
      c.tick.next.erase code (k + 1) = c.erase code k := by
  obtain ⟨p, hp⟩ := Int.eq_ofNat_of_zero_le h.position_nonneg
  rw [hp, Int.toNat_natCast, Text.CommentAt, Option.map_eq_some_iff] at hc
  obtain ⟨x, hx, hi⟩ := hc
  constructor
  · rw [step_of_getElem? hp hx, hi]
    rfl
  · have hr := Text.rank_succ_of_none hx hi
    have hn : ((p : Int) + 1).toNat = p + 1 := by omega
    simp only [Config.erase, Config.next, Config.tick, hp, hn, Int.toNat_natCast, hr,
      Config.mk.injEq, State.mk.injEq, true_and, and_true]
    omega

theorem step_erase_of_plain (h : c.Inside code size) (hp : c.state.position = p)
    (hx : code[p]? = some x) {command : Command} (hc : Command.ofCodePoint? x = some command)
    (hi : IsPlain (some command)) :
    (ofTable code.bare t').step (c.erase code k) =
      ((ofTable code t).step c).map (Config.erase code k) := by
  have hr := Text.rank_succ_of_some hx hc
  have hx' : code.bare[code.rank p]? = some x := Text.getElem?_ofCommands hx hc
  have hp' : (c.erase code k).state.position = code.rank p := by simp [Config.erase, hp]
  rw [step_of_getElem? hp hx, step_of_getElem? hp' hx', hc, Config.erase_eq_shift hp,
    Config.shift_tick, perform_shift _ (ofTable code t) hi]
  rcases perform_stays_or_refuses (ofTable code t) hi h.tick.inRange with
    ⟨d, hd, -, hpos⟩ | ⟨_, e, d, -, hd, hs, -⟩
  · have hd' : d.state.position = (p + 1 : Nat) := by
      rw [hpos]
      simp [Config.tick, hp]
    rw [hd, Progress.map, Progress.map, Config.erase_eq_shift hd', hr]
    congr 2
    omega
  · have hd' : d.state.position = p := by rw [hs]; exact hp
    rw [hd, Progress.map, Progress.map, Config.erase_eq_shift hd']

/-- A bracket leads to corresponding positions. -/
theorem step_erase_of_encloses (ht : t.Holds code code.length) (ha : t.Agree code t')
    (h : c.Inside code size) {i j : Nat} (he : code.Encloses i j)
    (hp : c.state.position = i ∨ c.state.position = j) :
    (ofTable code.bare t').step (c.erase code k) =
      ((ofTable code t).step c).map (Config.erase code k) := by
  have hi : code.CommandAt i := ⟨_, _, he.startsAt, Command.ofCodePoint?_codePoint _⟩
  have hj : code.CommandAt j := ⟨_, _, he.endsAt, Command.ofCodePoint?_codePoint _⟩
  have hs : code.bare.StartsAt (code.rank i) :=
    Text.getElem?_ofCommands he.startsAt (Command.ofCodePoint?_codePoint _)
  have hs' : code.bare.EndsAt (code.rank j) :=
    Text.getElem?_ofCommands he.endsAt (Command.ofCodePoint?_codePoint _)
  have hx : t'.ends[code.rank i]? = some (some (code.rank j : Int)) := by
    rw [ha.ends_eq i hi, ht.ends_of_encloses he]
    rfl
  have hy : t'.starts[code.rank j]? = some (some (code.rank i : Int)) := by
    rw [ha.starts_eq j hj, ht.starts_of_encloses he]
    rfl
  have hp' : (c.erase code k).state.position = code.rank i ∨
      (c.erase code k).state.position = code.rank j := by
    rcases hp with hp | hp
    · exact .inl (by simp [Config.erase, hp])
    · exact .inr (by simp [Config.erase, hp])
  have hb : (c.erase code k).state.cell = .ok c.state.value := h.inRange.cell_eq
  rw [step_of_slots hs hs' hx hy hp' hb, step_of_encloses ht he hp h.inRange.cell_eq, Progress.map,
    ← Config.erase_tick_goto, apply_ite code.rank, hi.rank_succ, hj.rank_succ]

/-- Where no comment stands, the two programs go side by side. -/
theorem step_erase (ht : t.Holds code code.length) (hb : code.Balanced) (ha : t.Agree code t')
    (h : c.Inside code size) (hc : ¬ code.CommentAt c.state.position.toNat) :
    (ofTable code.bare t').step (c.erase code k) =
      ((ofTable code t).step c).map (Config.erase code k) := by
  obtain ⟨p, hp⟩ := Int.eq_ofNat_of_zero_le h.position_nonneg
  have hle := h.position_le
  rw [hp, Int.toNat_natCast] at hc
  rcases Nat.lt_or_ge p code.length with hlt | hge
  · have hx : code[p]? = some code[p] := List.getElem?_eq_getElem hlt
    cases hi : Command.ofCodePoint? code[p] with
    | none =>
      refine absurd ?_ hc
      rw [Text.CommentAt, hx, Option.map_some, hi]
    | some command =>
      by_cases hpl : IsPlain (some command)
      · exact step_erase_of_plain h hp hx hi hpl
      · obtain ⟨i, j, he, hij⟩ := exists_encloses_of_not_isPlain hb hx (by rwa [hi])
        exact step_erase_of_encloses ht ha h he (by omega)
  · obtain rfl : p = code.length := by omega
    have hp' : (c.erase code k).state.position = code.bare.length := by
      simp [Config.erase, hp, Text.length_bare]
    rw [step_of_length_le hp'.ge, step_of_length_le hp.ge]
    rfl

/-- The run without comments is the run with comments, less the steps that pass over them. -/
theorem advance_erase (ht : t.Holds code code.length) (hb : code.Balanced) (ha : t.Agree code t')
    (h : c.Inside code size) (n k : Nat) :
    (ofTable code.bare t').advance (n - (ofTable code t).comments n c) (c.erase code k) =
      ((ofTable code t).advance n c).map
        (Config.erase code (k + (ofTable code t).comments n c)) := by
  induction n generalizing c k with
  | zero => rfl
  | succ n ih =>
    rw [advance_succ]
    by_cases hc : code.CommentAt c.state.position.toNat
    · -- the text passes over a comment while its commands wait
      obtain ⟨hd, he⟩ := step_comment (t := t) (k := k) h hc
      rw [comments_succ_of_comment hd hc, hd, Progress.andThen, ← he, Nat.add_comm n 1,
        Nat.add_sub_add_left, ih (inside_of_step ht hb h hd) (k + 1), Nat.add_assoc]
    · have hs := step_erase (k := k) ht hb ha h hc
      cases hd : (ofTable code t).step c with
      | running d =>
        have hle := comments_le (ofTable code t) n d
        rw [hd] at hs
        rw [comments_succ_of_running hd hc, Nat.succ_sub hle, advance_succ, hs]
        exact ih (inside_of_step ht hb h hd) k
      | finished d =>
        have h₀ : (ofTable code t).comments (n + 1) c = 0 := by simp only [comments, hd]
        rw [hd] at hs
        rw [h₀, Nat.sub_zero, advance_succ, hs]
        rfl
      | failed e d =>
        have h₀ : (ofTable code t).comments (n + 1) c = 0 := by simp only [comments, hd]
        rw [hd] at hs
        rw [h₀, Nat.sub_zero, advance_succ, hs]
        rfl

/-- The comments ahead of a machine are passed over in finitely many steps. -/
theorem exists_advance_past_comments (ht : t.Holds code code.length) (hb : code.Balanced)
    (h : c.Inside code size) (k : Nat) :
    ∃ n d, (ofTable code t).advance n c = .running d ∧ d.Inside code size ∧
      ¬ code.CommentAt d.state.position.toNat ∧ d.erase code (k + n) = c.erase code k := by
  generalize hr : code.length - c.state.position.toNat = r
  induction r generalizing c k with
  | zero =>
    refine ⟨0, c, rfl, h, fun hc => ?_, rfl⟩
    rw [Text.CommentAt, List.getElem?_eq_none (by omega)] at hc
    simp at hc
  | succ r ih =>
    by_cases hc : code.CommentAt c.state.position.toNat
    · obtain ⟨hd, he⟩ := step_comment (t := t) (k := k) h hc
      have hpos := h.position_nonneg
      have hr' : code.length - c.tick.next.state.position.toNat = r := by
        simp only [Config.next, Config.tick]
        omega
      obtain ⟨n, d, hn, hin, hnc, hed⟩ := ih (inside_of_step ht hb h hd) (k + 1) hr'
      refine ⟨n + 1, d, ?_, hin, hnc, ?_⟩
      · rw [advance_succ, hd]
        exact hn
      · rw [← he, ← hed, Nat.add_assoc, Nat.add_comm 1 n]
    · exact ⟨0, c, rfl, h, hc, rfl⟩

theorem exists_outcome_of_erase (ht : t.Holds code code.length) (hb : code.Balanced)
    (ha : t.Agree code t') (h : c.Inside code size)
    (hn : ((ofTable code.bare t').advance n (c.erase code k)).outcome? = some o) :
    ∃ m o', ((ofTable code t).advance m c).outcome? = some o' := by
  induction n generalizing c k with
  | zero => simp [Progress.outcome?] at hn
  | succ n ih =>
    obtain ⟨m, d, hm, hin, hc, he⟩ := exists_advance_past_comments ht hb h k
    have hs := step_erase (k := k + m) ht hb ha hin hc
    rw [← he, advance_succ, hs] at hn
    cases hd : (ofTable code t).step d with
    | running d' =>
      rw [hd] at hn
      obtain ⟨m', o', ho⟩ := ih (inside_of_step ht hb hin hd) hn
      refine ⟨m + (m' + 1), o', ?_⟩
      rw [advance_trans hm, advance_succ, hd]
      exact ho
    | finished d' =>
      refine ⟨m + 1, ⟨none, d'⟩, ?_⟩
      rw [advance_trans hm, advance_one, hd]
      rfl
    | failed e d' =>
      refine ⟨m + 1, ⟨some e, d'⟩, ?_⟩
      rw [advance_trans hm, advance_one, hd]
      rfl

end Image

/-- The same end of a run, at the corresponding position and less `k` steps. -/
def Outcome.erase (code : Text) (k : Nat) (o : Outcome) : Outcome :=
  ⟨o.error?, o.final.erase code k⟩

theorem Progress.outcome?_map_erase (code : Text) (k : Nat) (p : Progress) :
    (p.map (Config.erase code k)).outcome? = p.outcome?.map (Outcome.erase code k) := by
  cases p <;> rfl

namespace Execution

/-- The executions end alike or not at all: `y` as `x` does, at the corresponding position, with
fewer steps by the comments of `code` that `x` passes over. -/
structure SameRun (code : Text) (x y : Execution) : Prop where
  forward : ∀ n o, x.run n = some o →
    ∃ m, y.run m = some (o.erase code (x.image.comments n x.config))
  backward : ∀ m o', y.run m = some o' →
    ∃ n o, x.run n = some o ∧ o' = o.erase code (x.image.comments n x.config)

variable {code : Text} {t t' : JumpTable}

theorem sameRun_bare (ht : t.Holds code code.length) (hb : code.Balanced)
    (ha : t.Agree code t') {s : State} (hs : s.InRange) (input : Input) (sink : Sink) :
    SameRun code ⟨Image.ofTable code t, Config.start s input sink⟩
      ⟨Image.ofTable code.bare t', Config.start s input sink⟩ := by
  have hin := Config.inside_start code hs input sink
  have hforward : ∀ n o,
      ((Image.ofTable code t).advance n (Config.start s input sink)).outcome? = some o →
      ∃ m, ((Image.ofTable code.bare t').advance m (Config.start s input sink)).outcome? =
        some (o.erase code ((Image.ofTable code t).comments n (Config.start s input sink))) := by
    intro n o ho
    have he := Image.advance_erase ht hb ha hin n 0
    rw [Config.erase_start, Nat.zero_add] at he
    refine ⟨n - (Image.ofTable code t).comments n (Config.start s input sink), ?_⟩
    rw [he, Progress.outcome?_map_erase, ho, Option.map_some]
  refine ⟨hforward, fun m o' ho' => ?_⟩
  have hm := ho'
  rw [run, ← Config.erase_start code] at hm
  obtain ⟨n, o, ho⟩ := Image.exists_outcome_of_erase ht hb ha hin hm
  obtain ⟨m', hm'⟩ := hforward n o ho
  exact ⟨n, o, ho, Image.outcome?_unique ho' hm'⟩

/-- Dropping the comments of a program changes neither the answer to its brackets nor what it
does, but only where its commands stand and how many steps it takes. -/
theorem sameRun_program (text : Text) (capacity : Int) (h₀ : 0 < capacity)
    (hc : text.commands.length ≤ capacity) (strict : Bool) :
    ∃ program, (Source.text text).program capacity strict = .ok program ∧
      program.truncated = false ∧ program.text = text.bare ∧
      Set.BijOn text.rank {i | text.CommandAt i} (Set.Iio program.text.length) ∧
      JumpTable.SameAnswer text (JumpTable.resolve text) (JumpTable.resolve program.text) ∧
      ∀ t, JumpTable.resolve text = .ok t → ∀ s : State, s.InRange →
        ∀ (memory : Memory) (tapeSize : Int) (input : Input) (sink : Sink), ∃ x y,
          start memory text none (some s) tapeSize input sink = .ok x ∧
          start memory program.text none (some s) tapeSize input sink = .ok y ∧
          x.SameRun text y := by
  have hp := Source.program_eq_ok (s := .text text) h₀ (by rwa [Source.commands_text]) strict
  rw [Source.commands_text] at hp
  have ha := JumpTable.resolve_bare text
  refine ⟨_, hp, rfl, rfl, text.bijOn_rank, ha, ?_⟩
  intro t ht s hs memory tapeSize input sink
  cases ht' : JumpTable.resolve text.bare with
  | error r =>
    rw [ht, ht'] at ha
    exact ha.elim
  | ok t' =>
    rw [ht, ht'] at ha
    exact ⟨_, _, start_of_resolve ht memory s tapeSize input sink,
      start_of_resolve ht' memory s tapeSize input sink,
      sameRun_bare (JumpTable.holds_of_resolve ht) (JumpTable.balanced_of_resolve ht) ha hs input
        sink⟩

/-- Comments right before and after jump targets, one of them beyond ASCII. -/
theorem sameRun_program_jumps :
    ∃ program x y, (Source.text (Text.ofString "é,[a.-é]b")).program 5 true = .ok program ∧
      start (.upTo 9) (Text.ofString "é,[a.-é]b") none (some { tape := #[0] }) 0
        (.memory (.bytes [2])) {} = .ok x ∧
      start (.upTo 9) program.text none (some { tape := #[0] }) 0 (.memory (.bytes [2])) {} =
        .ok y ∧
      x.SameRun (Text.ofString "é,[a.-é]b") y := by
  obtain ⟨program, hp, -, -, -, -, hrun⟩ :=
    sameRun_program (Text.ofString "é,[a.-é]b") 5 (by decide) (by decide) true
  obtain ⟨x, y, hx, hy, hs⟩ := hrun _ rfl { tape := #[0] } ⟨by decide, by decide⟩ _ 0
    (.memory (.bytes [2])) {}
  exact ⟨program, x, y, hp, hx, hy, hs⟩

end Execution

end Brainfuck
