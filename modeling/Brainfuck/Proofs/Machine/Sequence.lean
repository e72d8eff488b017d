import Brainfuck.Proofs.Bracket.Append
import Brainfuck.Proofs.Machine.Safety
import Brainfuck.Proofs.Machine.Simulation

/-! One program after another. Control leaves the first program only by its end, so the whole runs
as the first does, and then as the second does further on, with the machine and the streams that
the first has left. -/

namespace Brainfuck

/-- The programs `p` and `q` with their tables `t` and `u`, and the table `v` of both in a row. -/
structure Seam (p q : Text) (t u v : JumpTable) : Prop where
  balanced_left : p.Balanced
  holds_left : t.Holds p p.length
  balanced_right : q.Balanced
  holds_right : u.Holds q q.length
  holds : v.Holds (p ++ q) (p ++ q).length

namespace Config

/-- The machine in a program that stands behind `n` positions, after the failures `before` of its
input. -/
def behind (n : Nat) (before : Array Fault) (c : Config) : Config :=
  { c with
    state := { c.state with position := c.state.position + n }
    missed := before ++ c.missed }

theorem behind_eq_relay (n : Nat) (before : Array Fault) (c : Config) :
    c.behind n before = (c.shift n 0).relay id (before ++ ·) := by
  simp [behind, shift, relay]

theorem behind_start {c : Config} {n : Nat} (h : c.state.position = n) :
    (start c.state c.input c.sink).behind n c.missed = c := by
  simp [behind, start, ← h]

theorem shift_goto (c : Config) (k j : Nat) :
    (c.goto j).shift k 0 = (c.shift k 0).goto (k + j : Nat) := by
  simp [shift, goto, Int.add_comm]

end Config

namespace Image

variable {p q : Text} {t u v : JumpTable} {size n : Nat} {c d : Config}

/-! ### Steps on either side of the seam -/

theorem perform_of_isPlain (image image' : Image) {i : Option Command} (hi : IsPlain i)
    (c : Config) : image.perform i c = image'.perform i c := by
  cases i with
  | none => rfl
  | some i =>
    cases i with
    | loopStart => exact absurd rfl hi.1
    | loopEnd => exact absurd rfl hi.2
    | _ => rfl

theorem step_append_left (hs : Seam p q t u v) (h : c.Inside p size)
    (hlt : c.state.position < p.length) :
    (ofTable (p ++ q) v).step c = (ofTable p t).step c := by
  obtain ⟨k, hk⟩ := Int.eq_ofNat_of_zero_le h.position_nonneg
  have hx : p[k]? = some p[k] := List.getElem?_eq_getElem (by omega)
  by_cases hi : IsPlain (Command.ofCodePoint? p[k])
  · have hx' : (p ++ q)[k]? = some p[k] := by rw [List.getElem?_append_left (by omega), hx]
    rw [step_of_getElem? hk hx, step_of_getElem? hk hx']
    exact perform_of_isPlain _ _ hi c.tick
  · obtain ⟨i, j, he, hij⟩ := exists_encloses_of_not_isPlain hs.balanced_left hx hi
    rw [step_of_encloses hs.holds_left he (by omega) h.inRange.cell_eq,
      step_of_encloses hs.holds (he.append_left q) (by omega) h.inRange.cell_eq]

theorem step_append_right (hs : Seam p q t u v) (h : c.Inside q size) :
    (ofTable (p ++ q) v).step (c.shift p.length 0) =
      ((ofTable q u).step c).map (·.shift p.length 0) := by
  obtain ⟨k, hk⟩ := Int.eq_ofNat_of_zero_le h.position_nonneg
  have hk' : (c.shift p.length 0).state.position = (p.length + k : Nat) := by
    simp [Config.shift, hk, Int.add_comm]
  rcases Nat.lt_or_ge k q.length with hlt | hge
  · have hx : q[k]? = some q[k] := List.getElem?_eq_getElem hlt
    by_cases hi : IsPlain (Command.ofCodePoint? q[k])
    · have hx' : (p ++ q)[p.length + k]? = some q[k] := by
        rw [Text.getElem?_append_length_add, hx]
      rw [step_of_getElem? hk hx, step_of_getElem? hk' hx', Config.shift_tick]
      exact perform_shift _ _ hi c.tick p.length 0
    · obtain ⟨i, j, he, hij⟩ := exists_encloses_of_not_isPlain hs.balanced_right hx hi
      have hb : (c.shift p.length 0).state.cell = .ok c.state.value := h.inRange.cell_eq
      rw [step_of_encloses hs.holds_right he (by omega) h.inRange.cell_eq,
        step_of_encloses hs.holds (he.append_right hs.balanced_left) (by omega) hb, Progress.map,
        Config.shift_goto, Config.shift_tick]
      congr 2
      split <;> omega
  · have hend : ((p ++ q).length : Int) ≤ (c.shift p.length 0).state.position := by
      rw [hk', List.length_append]
      omega
    rw [step_of_length_le hend, step_of_length_le (by omega)]
    rfl

theorem step_append_behind (hs : Seam p q t u v) (h : c.Inside q size) (before : Array Fault) :
    (ofTable (p ++ q) v).step (c.behind p.length before) =
      ((ofTable q u).step c).map (Config.behind p.length before) := by
  rw [Config.behind_eq_relay, step_relay _ (fun _ _ => rfl) (fun _ _ => Array.append_push),
    step_append_right hs h]
  cases (ofTable q u).step c <;> simp [Progress.map, Config.behind_eq_relay]

/-! ### Runs on either side of the seam -/

/-- The second program runs in the whole as it does on its own. -/
theorem advance_append_behind (hs : Seam p q t u v) (h : c.Inside q size) (before : Array Fault)
    (n : Nat) :
    (ofTable (p ++ q) v).advance n (c.behind p.length before) =
      ((ofTable q u).advance n c).map (Config.behind p.length before) :=
  advance_map (P := Config.Inside q size)
    (fun _ _ hc hd => inside_of_step hs.holds_right hs.balanced_right hc hd)
    (fun _ hc => step_append_behind hs hc before) h n

/-- As long as the first program runs, the whole does the same. -/
theorem advance_append_of_running (hs : Seam p q t u v) (h : c.Inside p size)
    (hd : (ofTable p t).advance n c = .running d) :
    (ofTable (p ++ q) v).advance n c = .running d := by
  induction n generalizing d with
  | zero => exact hd
  | succ n ih =>
    rw [advance_succ_last] at hd ⊢
    cases hb : (ofTable p t).advance n c with
    | running b =>
      rw [hb] at hd
      rw [ih hb]
      -- at the end of its text the first program would have stopped
      have hin := advance_inside hs.holds_left hs.balanced_left h hb
      have hlt : b.state.position < p.length := by
        by_contra hge
        rw [Progress.andThen, step_of_length_le (by omega)] at hd
        simp at hd
      exact (step_append_left hs hin hlt).trans hd
    | finished b => simp [hb, Progress.andThen] at hd
    | failed e b => simp [hb, Progress.andThen] at hd

theorem advance_append_of_failed (hs : Seam p q t u v) (h : c.Inside p size) {e : Error}
    (hd : (ofTable p t).advance n c = .failed e d) :
    ∃ m, (ofTable (p ++ q) v).advance m c = .failed e d := by
  obtain ⟨m, b, -, hb, hstep⟩ := exists_last_step hd (by simp)
  have hin := advance_inside hs.holds_left hs.balanced_left h hb
  have hlt : b.state.position < p.length := by
    by_contra hge
    rw [step_of_length_le (by omega)] at hstep
    simp at hstep
  refine ⟨m + 1, ?_⟩
  rw [advance_trans (advance_append_of_running hs h hb), advance_one, step_append_left hs hin hlt,
    hstep]

/-- Where the first program ends, the whole stands at the seam. -/
theorem advance_append_of_finished (hs : Seam p q t u v) (h : c.Inside p size)
    (hd : (ofTable p t).advance n c = .finished d) :
    (∃ m, (ofTable (p ++ q) v).advance m c = .running d) ∧ d.Inside p size ∧
      d.state.position = p.length := by
  obtain ⟨m, b, -, hb, hstep⟩ := exists_last_step hd (by simp)
  have hin := advance_inside hs.holds_left hs.balanced_left h hb
  rcases step_inside hs.holds_left hs.balanced_left hin with
    ⟨hf, hpos⟩ | ⟨b', hf, -⟩ | ⟨_, _, _, -, hf, -⟩
  · rw [hf, Progress.finished.injEq] at hstep
    subst hstep
    exact ⟨⟨m, advance_append_of_running hs h hb⟩, hin, hpos⟩
  · simp [hf] at hstep
  · simp [hf] at hstep

end Image

namespace Execution

/-- The execution `xy` is that of `x`, whose program is `p`, followed by a run of `q` on the
machine and the streams that `x` leaves. -/
structure Composes (p q : Text) (memory : Memory) (tapeSize : Int) (x xy : Execution) : Prop where
  /-- A failure of the first program is the failure of the whole. -/
  failed : ∀ n e c, x.run n = some ⟨some e, c⟩ → ∃ m, xy.run m = some ⟨some e, c⟩
  /-- If the first program never ends, nor does the whole. -/
  endless : (∀ n, x.run n = none) → ∀ n, xy.run n = none
  /-- Once the first program has ended, the whole ends exactly as the second does, its position
  further on by the length of the first. -/
  finished : ∀ n c, x.run n = some ⟨none, c⟩ →
    ∃ y, start memory q none (some c.state) tapeSize c.input c.sink = .ok y ∧
      ∀ o, (∃ m, xy.run m = some o) ↔
        ∃ m o', y.run m = some o' ∧ o = o'.map (Config.behind p.length c.missed)

variable {p q : Text} {t u v : JumpTable}

theorem composes_of_seam (hs : Seam p q t u v) (hq : JumpTable.resolve q = .ok u) {s : State}
    (hr : s.InRange) (memory : Memory) (tapeSize : Int) (input : Input) (sink : Sink) :
    Composes p q memory tapeSize ⟨Image.ofTable p t, Config.start s input sink⟩
      ⟨Image.ofTable (p ++ q) v, Config.start s input sink⟩ := by
  have hin := Config.inside_start p hr input sink
  refine ⟨fun n e c hc => ?_, fun hend n => ?_, fun n c hc => ?_⟩
  · rw [run, Progress.outcome?_eq_failed] at hc
    obtain ⟨m, hm⟩ := Image.advance_append_of_failed hs hin hc
    exact ⟨m, by rw [run, Progress.outcome?_eq_failed]; exact hm⟩
  · have hn := hend n
    rw [run, Progress.outcome?_eq_none] at hn
    obtain ⟨d, hd⟩ := hn
    rw [run, Progress.outcome?_eq_none]
    exact ⟨d, Image.advance_append_of_running hs hin hd⟩
  · rw [run, Progress.outcome?_eq_finished] at hc
    obtain ⟨⟨k, hk⟩, hin', hpos⟩ := Image.advance_append_of_finished hs hin hc
    refine ⟨_, start_of_resolve hq memory c.state tapeSize c.input c.sink, fun o => ?_⟩
    -- from the seam on, the whole runs as the second program does from its start
    have hrun : ∀ m, ((Image.ofTable (p ++ q) v).advance m c).outcome? =
        ((Image.ofTable q u).advance m (Config.start c.state c.input c.sink)).outcome?.map
          (Outcome.map (Config.behind p.length c.missed)) := by
      intro m
      have hb := Image.advance_append_behind hs
        (Config.inside_start q hin'.inRange c.input c.sink) c.missed m
      rw [Config.behind_start hpos] at hb
      rw [hb, Progress.outcome?_map]
    constructor
    · rintro ⟨m, hm⟩
      have hm' := Image.outcome?_advance_add hm k
      rw [Nat.add_comm, Image.advance_trans hk, hrun, Option.map_eq_some_iff] at hm'
      obtain ⟨o', ho', rfl⟩ := hm'
      exact ⟨m, o', ho', rfl⟩
    · rintro ⟨m, o', ho', rfl⟩
      refine ⟨k + m, ?_⟩
      rw [run, Image.advance_trans hk, hrun, Option.map_eq_some_iff]
      exact ⟨o', ho', rfl⟩

/-- Two programs in a row: their tables in a row, and their runs one after the other. -/
theorem composes_append (hp : JumpTable.resolve p = .ok t) (hq : JumpTable.resolve q = .ok u) :
    JumpTable.resolve (p ++ q) = .ok (t.append (u.shift p.length)) ∧
      ∀ s : State, s.InRange → ∀ (memory : Memory) (tapeSize : Int) (input : Input) (sink : Sink),
        ∃ x xy, start memory p none (some s) tapeSize input sink = .ok x ∧
        start memory (p ++ q) none (some s) tapeSize input sink = .ok xy ∧
        x.Composes p q memory tapeSize xy := by
  have hpq := JumpTable.resolve_append hp hq
  have hs : Seam p q t u (t.append (u.shift p.length)) :=
    ⟨JumpTable.balanced_of_resolve hp, JumpTable.holds_of_resolve hp,
      JumpTable.balanced_of_resolve hq, JumpTable.holds_of_resolve hq,
      JumpTable.holds_of_resolve hpq⟩
  refine ⟨hpq, fun s hr memory tapeSize input sink => ?_⟩
  exact ⟨_, _, start_of_resolve hp memory s tapeSize input sink,
    start_of_resolve hpq memory s tapeSize input sink,
    composes_of_seam hs hq hr memory tapeSize input sink⟩

/-- A countdown, then a loop whose second write finds the pipe broken. -/
theorem composes_append_broken_pipe :
    JumpTable.resolve (Text.ofString ",[.-]" ++ Text.ofString "+[.]") =
        .ok ⟨#[none, some 4, none, none, none, none, some 8, none, none],
          #[none, none, none, none, some 1, none, none, none, some 6]⟩ ∧
      ∃ x xy, start (.upTo 9) (Text.ofString ",[.-]") none (some { tape := #[0] }) 0
          (.memory (.bytes [2])) { writeLimit := some 3 } = .ok x ∧
        start (.upTo 9) (Text.ofString ",[.-]" ++ Text.ofString "+[.]") none
          (some { tape := #[0] }) 0 (.memory (.bytes [2])) { writeLimit := some 3 } = .ok xy ∧
        x.Composes (Text.ofString ",[.-]") (Text.ofString "+[.]") (.upTo 9) 0 xy := by
  obtain ⟨htable, hrun⟩ := composes_append (p := Text.ofString ",[.-]") (q := Text.ofString "+[.]")
    (t := ⟨#[none, some 4, none, none, none], #[none, none, none, none, some 1]⟩)
    (u := ⟨#[none, some 3, none, none], #[none, none, none, some 1]⟩) rfl rfl
  exact ⟨htable.trans (by simp [JumpTable.append, JumpTable.shift, Text.ofString]),
    hrun { tape := #[0] } ⟨by decide, by decide⟩ _ 0 _ _⟩

end Execution

end Brainfuck
