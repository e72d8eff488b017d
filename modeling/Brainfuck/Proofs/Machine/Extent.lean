import Brainfuck.Proofs.Machine.Safety
import Brainfuck.Proofs.Machine.Tape

/-! The extent of the tape. A program learns how many cells there are only by going round the end of
the tape. A run that never does so goes the same way on any longer tape, whose further cells it
leaves as they are. -/

namespace Brainfuck

namespace State

/-- The state with `k` more cells, all zero, at the end of its tape. -/
def extend (k : Nat) (s : State) : State :=
  { s with tape := s.tape ++ Array.replicate k 0 }

/-- A new machine with more cells is a new machine whose tape was made longer. -/
theorem extend_replicate {n m : Nat} (h : n ≤ m) :
    extend (m - n) { tape := Array.replicate n 0 } = { tape := Array.replicate m 0 } := by
  simp [extend, Nat.add_sub_cancel' h]

variable {s : State}

theorem InRange.keepsCell_extend (h : s.InRange) (k : Nat) :
    s.KeepsCell (· ++ Array.replicate k 0) (fun _ p => p) s.pointer.toNat s.pointer.toNat := by
  have h₀ := h.pointer_nonneg
  have h₁ := h.pointer_lt
  have hlt : s.pointer.toNat < s.tape.size := by omega
  constructor
  · exact h.cellIndex_eq
  · rw [cellIndex, Offset.index?_of_nonneg h₀ (by simp; omega)]
  · rw [Array.getD_eq_getD_getElem?, Array.getElem?_append_left hlt,
      Array.getD_eq_getD_getElem?]
  · intro b
    simp [hlt]

/-- Away from the last cell a move to the right is the same on all tapes. -/
theorem InRange.keepsMove_right (h : s.InRange) (k : Nat) (hp : s.pointer ≠ s.tape.size - 1) :
    s.KeepsMove (· ++ Array.replicate k 0) (fun _ p => p) 1 := by
  have h₀ := h.pointer_nonneg
  have h₁ := h.pointer_lt
  simp only [KeepsMove, Array.size_append, Array.size_replicate]
  rw [Int.emod_eq_of_lt (by omega) (by omega), Int.emod_eq_of_lt (by omega) (by omega)]

theorem InRange.keepsMove_left (h : s.InRange) (k : Nat) (hp : s.pointer ≠ 0) :
    s.KeepsMove (· ++ Array.replicate k 0) (fun _ p => p) (-1) := by
  have h₀ := h.pointer_nonneg
  have h₁ := h.pointer_lt
  simp only [KeepsMove, Array.size_append, Array.size_replicate]
  rw [Int.emod_eq_of_lt (by omega) (by omega), Int.emod_eq_of_lt (by omega) (by omega)]

end State

def Config.extend (k : Nat) (c : Config) : Config :=
  { c with state := c.state.extend k }

/-- The instruction at hand moves the pointer over the end of the tape. -/
def Image.Wraps (image : Image) (c : Config) : Prop :=
  image.instruction c = some .right ∧ c.state.pointer = c.state.tape.size - 1 ∨
    image.instruction c = some .left ∧ c.state.pointer = 0

instance (image : Image) (c : Config) : Decidable (image.Wraps c) :=
  inferInstanceAs (Decidable (_ ∨ _))

/-- The run never moves the pointer over the end of the tape. -/
def Execution.NeverWraps (x : Execution) : Prop :=
  ∀ n c, x.image.advance n x.config = .running c → ¬ x.image.Wraps c

namespace Image

variable {code : Text} {t : JumpTable} {size : Nat} {c : Config}

theorem step_extend {image : Image} (h : c.state.InRange) (hw : ¬ image.Wraps c) (k : Nat) :
    image.step (c.extend k) = (image.step c).map (Config.extend k) := by
  refine image.step_retape (h.keepsCell_extend k) (fun hi => ?_) fun hi => ?_
  · exact h.keepsMove_right k fun hp => hw (.inl ⟨hi, hp⟩)
  · exact h.keepsMove_left k fun hp => hw (.inr ⟨hi, hp⟩)

theorem advance_extend (ht : t.Holds code code.length) (hb : code.Balanced)
    (h : c.Inside code size) (hw : Execution.NeverWraps ⟨ofTable code t, c⟩) (k n : Nat) :
    (ofTable code t).advance n (c.extend k) =
      ((ofTable code t).advance n c).map (Config.extend k) := by
  -- the hypothesis is on the machines of this run only, so they are the invariant
  refine advance_map (P := fun d => d.Inside code size ∧ ∃ m, (ofTable code t).advance m c =
    .running d) ?_ ?_ ⟨h, 0, rfl⟩ n
  · rintro d d' ⟨hd, m, hm⟩ hstep
    refine ⟨inside_of_step ht hb hd hstep, m + 1, ?_⟩
    rw [advance_succ_last, hm]
    exact hstep
  · rintro d ⟨hd, m, hm⟩
    exact step_extend hd.inRange (hw m d hm) k

end Image

namespace Execution

variable {code : Text} {t : JumpTable}

variable {memory : Memory} {n m : Int}

theorem start_of_new (h : JumpTable.resolve code = .ok t) {s : State}
    (hs : State.new memory n = .ok s) (input : Input) (sink : Sink) :
    start memory code none none n input sink =
      .ok ⟨Image.ofTable code t, Config.start s input sink⟩ := by
  rw [start_none_eq, h, hs]
  rfl

theorem start_of_new_error (h : JumpTable.resolve code = .ok t) {e : Error}
    (he : State.new memory n = .error e) (input : Input) (sink : Sink) :
    start memory code none none n input sink = .error e := by
  rw [start_none_eq, h, he]
  rfl

/-- The machines up to the end of a run are all that it goes through. -/
theorem neverWraps_of_run {x : Execution} {n : Nat} (h : (x.run n).isSome)
    (hw : ∀ m < n, ¬ x.image.Wraps (x.image.advance m x.config).config) : x.NeverWraps := by
  intro m c hc
  have hm : m < n := by
    by_contra hge
    obtain ⟨o, ho⟩ := Option.isSome_iff_exists.mp h
    have hend := Image.outcome?_advance_add ho (m - n)
    rw [Nat.add_sub_cancel' (by omega), hc] at hend
    simp [Progress.outcome?] at hend
  have hwraps := hw m hm
  rwa [hc] at hwraps

/-- A run on a new machine that never goes round the end of its tape is the same on any longer tape
for which a machine can be made; where none can be made there is no run. -/
theorem mirrors_extend (h : JumpTable.resolve code = .ok t) (hn : 1 ≤ n) (hm : n ≤ m)
    (input : Input) (sink : Sink) :
    (∀ s s', State.new memory n = .ok s → State.new memory m = .ok s' →
      ∃ x y, start memory code none none n input sink = .ok x ∧
        start memory code none none m input sink = .ok y ∧
        (x.NeverWraps → Mirrors (Config.extend (m - n).toNat) x y)) ∧
    (∀ e, State.new memory m = .error e → (e = .tapeTooLarge ∨ e = .outOfMemory) ∧
      start memory code none none m input sink = .error e) ∧
    (Offset.limit ≤ m → State.new memory m = .error .tapeTooLarge) := by
  refine ⟨fun s s' hs hs' => ?_, fun e he => ?_, State.new_of_limit_le⟩
  · refine ⟨_, _, start_of_new h hs input sink, start_of_new h hs' input sink,
      fun hw => mirrors_of_advance fun i => ?_⟩
    obtain ⟨-, -, rfl⟩ := State.eq_of_new hs
    obtain ⟨-, -, rfl⟩ := State.eq_of_new hs'
    have hr : State.InRange { tape := Array.replicate n.toNat 0 } :=
      ⟨le_rfl, by simp; omega⟩
    have hadvance := Image.advance_extend (JumpTable.holds_of_resolve h)
      (JumpTable.balanced_of_resolve h) (Config.inside_start code hr input sink) hw (m - n).toNat i
    have hextend : State.extend (m - n).toNat { tape := Array.replicate n.toNat 0 } =
        { tape := Array.replicate m.toNat 0 } := by
      rw [show (m - n).toNat = m.toNat - n.toNat by omega]
      exact State.extend_replicate (by omega)
    rw [← hadvance, ← hextend]
    rfl
  · exact ⟨State.eq_of_new_error (by omega) he, start_of_new_error h he input sink⟩

/-- A loop that goes to and fro between the two ends of the shorter tape. -/
theorem mirrors_extend_between_ends :
    ∃ x y, start (.upTo 9) (Text.ofString ">,[<.>-]<") none none 2 (.memory (.bytes [2])) {} =
        .ok x ∧
      start (.upTo 9) (Text.ofString ">,[<.>-]<") none none 5 (.memory (.bytes [2])) {} = .ok y ∧
      Mirrors (Config.extend 3) x y := by
  have hs : State.new (.upTo 9) 2 = .ok { tape := #[0, 0] } := rfl
  have hs' : State.new (.upTo 9) 5 = .ok { tape := #[0, 0, 0, 0, 0] } := rfl
  obtain ⟨x, y, hx, hy, hmirrors⟩ := (mirrors_extend
    (show JumpTable.resolve (Text.ofString ">,[<.>-]<") = .ok _ from rfl) (by decide) (by decide)
    (.memory (.bytes [2])) {}).1 _ _ hs hs'
  refine ⟨x, y, hx, hy, hmirrors ?_⟩
  obtain rfl := Except.ok.inj hx
  exact neverWraps_of_run (n := 15) (by decide +kernel) (by decide +kernel)

/-- There is no longer run at all, with any amount of memory, if the tape has more cells than can be
addressed. -/
theorem not_mirrors_extend_at_limit :
    ∃ x, start ⟨fun _ => true⟩ (Text.ofString "+") none none 1 (.memory (.bytes [])) {} = .ok x ∧
      x.NeverWraps ∧ (∃ d, x.run 2 = some ⟨none, d⟩) ∧
      ¬ ∃ y, start ⟨fun _ => true⟩ (Text.ofString "+") none none Offset.limit
          (.memory (.bytes [])) {} = .ok y ∧
        Mirrors (Config.extend (Offset.limit - 1).toNat) x y := by
  have hcode : JumpTable.resolve (Text.ofString "+") = .ok _ := rfl
  refine ⟨_, start_of_new hcode (show State.new _ 1 = .ok { tape := #[0] } from rfl) _ _, ?_,
    ⟨_, rfl⟩, ?_⟩
  · exact neverWraps_of_run (n := 2) (by decide +kernel) (by decide +kernel)
  · rintro ⟨y, hy, -⟩
    rw [start_of_new_error hcode (State.new_of_limit_le le_rfl)] at hy
    cases hy

end Execution

end Brainfuck
