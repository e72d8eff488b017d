import Brainfuck.Proofs.Machine.Safety
import Brainfuck.Proofs.Machine.Tape

/-! The tape is a ring. Which of its cells comes first makes no difference: if all cells and the
pointer are moved on by the same number of places, round the end of the tape, a program does what it
did before, that many places further on. -/

namespace Brainfuck

namespace State

/-- The tape with its cells moved on by `k` places: the cell `j` comes to `(j + k) % size`. -/
def rotateTape (k : Int) (tape : Array UInt8) : Array UInt8 :=
  Array.ofFn fun i : Fin tape.size => tape.getD (((i : Int) - k) % tape.size).toNat 0

/-- The state with its cells and its pointer moved on by `k` places. -/
def rotate (k : Int) (s : State) : State :=
  { s with
    tape := rotateTape k s.tape
    pointer := (s.pointer + k) % s.tape.size }

variable {k p q size : Int} {tape : Array UInt8} {s : State}

/-- On a ring, moving on and moving back undo each other. -/
theorem sub_emod_eq_iff (hp : 0 ≤ p) (hp' : p < size) (hq : 0 ≤ q) (hq' : q < size) :
    (q - k) % size = p ↔ q = (p + k) % size := by
  constructor
  · rintro rfl
    rw [Int.emod_add_emod, Int.sub_add_cancel, Int.emod_eq_of_lt hq hq']
  · rintro rfl
    rw [Int.emod_sub_emod, Int.add_sub_cancel, Int.emod_eq_of_lt hp hp']

@[simp]
theorem size_rotateTape (k : Int) (tape : Array UInt8) :
    (rotateTape k tape).size = tape.size := by
  simp [rotateTape]

theorem getElem?_rotateTape {i : Nat} (hi : i < tape.size) :
    (rotateTape k tape)[i]? = some (tape.getD (((i : Int) - k) % tape.size).toNat 0) := by
  simp [rotateTape, hi]

theorem getD_rotateTape (hp : 0 ≤ p) (hp' : p < tape.size) :
    (rotateTape k tape).getD ((p + k) % tape.size).toNat 0 = tape.getD p.toNat 0 := by
  have hq : 0 ≤ (p + k) % tape.size := Int.emod_nonneg _ (by omega)
  have hq' : (p + k) % tape.size < tape.size := Int.emod_lt_of_pos _ (by omega)
  rw [Array.getD_eq_getD_getElem?, getElem?_rotateTape (by omega), Int.toNat_of_nonneg hq,
    (sub_emod_eq_iff hp hp' hq hq').mpr rfl, Option.getD_some]

theorem rotateTape_setIfInBounds (hp : 0 ≤ p) (hp' : p < tape.size) (b : UInt8) :
    rotateTape k (tape.setIfInBounds p.toNat b) =
      (rotateTape k tape).setIfInBounds ((p + k) % tape.size).toNat b := by
  have hq : 0 ≤ (p + k) % tape.size := Int.emod_nonneg _ (by omega)
  have hq' : (p + k) % tape.size < tape.size := Int.emod_lt_of_pos _ (by omega)
  apply Array.ext_getElem?
  intro i
  rcases Nat.lt_or_ge i tape.size with hi | hi
  · have hr : 0 ≤ ((i : Int) - k) % tape.size := Int.emod_nonneg _ (by omega)
    have hr' : ((i : Int) - k) % tape.size < tape.size := Int.emod_lt_of_pos _ (by omega)
    have hiff := sub_emod_eq_iff (k := k) hp hp' (Int.natCast_nonneg i) (Int.ofNat_lt.mpr hi)
    rw [getElem?_rotateTape (by simpa using hi), Array.size_setIfInBounds,
      Array.getD_eq_getD_getElem?, Array.getElem?_setIfInBounds, Array.getElem?_setIfInBounds]
    -- the cell that comes to `i` is the one that was set, or it is not
    by_cases hset : (i : Int) = (p + k) % tape.size
    · rw [hiff.mpr hset, if_pos rfl, if_pos (by omega), if_pos (by omega),
        if_pos (by rw [size_rotateTape]; omega), Option.getD_some]
    · rw [if_neg (by omega), if_neg (by omega), getElem?_rotateTape hi,
        Array.getD_eq_getD_getElem?]
  · rw [Array.getElem?_eq_none (by simpa using hi), Array.getElem?_eq_none (by simpa using hi)]

end State

def Config.rotate (k : Int) (c : Config) : Config :=
  { c with state := c.state.rotate k }

theorem State.InRange.keepsCell_rotate {s : State} (h : s.InRange) (k : Int) :
    s.KeepsCell (rotateTape k) (fun size p => (p + k) % size) s.pointer.toNat
      ((s.pointer + k) % s.tape.size).toNat := by
  have h₀ := h.pointer_nonneg
  have h₁ := h.pointer_lt
  have hq : 0 ≤ (s.pointer + k) % s.tape.size := Int.emod_nonneg _ (by omega)
  have hq' : (s.pointer + k) % s.tape.size < s.tape.size := Int.emod_lt_of_pos _ (by omega)
  constructor
  · exact h.cellIndex_eq
  · rw [size_rotateTape, cellIndex, Offset.index?_of_nonneg hq hq']
  · exact getD_rotateTape h₀ h₁
  · exact rotateTape_setIfInBounds h₀ h₁

theorem State.keepsMove_rotate (s : State) (k distance : Int) :
    s.KeepsMove (rotateTape k) (fun size p => (p + k) % size) distance := by
  rw [KeepsMove, size_rotateTape, Int.emod_add_emod, Int.emod_add_emod, Int.add_right_comm]

namespace Image

variable {code : Text} {t : JumpTable} {size : Nat} {c : Config}

theorem step_rotate (image : Image) (h : c.state.InRange) (k : Int) :
    image.step (c.rotate k) = (image.step c).map (Config.rotate k) :=
  image.step_retape (h.keepsCell_rotate k) (fun _ => c.state.keepsMove_rotate k 1)
    fun _ => c.state.keepsMove_rotate k (-1)

theorem advance_rotate (ht : t.Holds code code.length) (hb : code.Balanced)
    (h : c.Inside code size) (k : Int) (n : Nat) :
    (ofTable code t).advance n (c.rotate k) =
      ((ofTable code t).advance n c).map (Config.rotate k) :=
  advance_map (P := Config.Inside code size) (fun _ _ hc hd => inside_of_step ht hb hc hd)
    (fun _ hc => step_rotate _ hc.inRange k) h n

end Image

namespace Execution

variable {code : Text} {t : JumpTable}

/-- A program runs alike wherever on the ring it starts: the two runs end alike or not at all, and
what one does to a cell the other does to the cell `k` places further on. -/
theorem mirrors_rotate (h : JumpTable.resolve code = .ok t) (s : State) (hs : s.InRange) (k : Int)
    (memory : Memory) (tapeSize : Int) (input : Input) (sink : Sink) :
    ∃ x y, start memory code none (some s) tapeSize input sink = .ok x ∧
      start memory code none (some (s.rotate k)) tapeSize input sink = .ok y ∧
      Mirrors (Config.rotate k) x y := by
  have ht := JumpTable.holds_of_resolve h
  have hb := JumpTable.balanced_of_resolve h
  have hin := Config.inside_start code hs input sink
  have hstart := fun s => start_of_resolve h memory s tapeSize input sink
  exact ⟨_, _, hstart s, hstart (s.rotate k), mirrors_of_advance (Image.advance_rotate ht hb hin k)⟩

/-- The first move goes round the end of one tape and not of the other. Both runs fail at the third
write. -/
theorem mirrors_rotate_broken_pipe :
    ∃ x y, start (.upTo 9) (Text.ofString "<[.,]>.") none (some { tape := #[5, 6, 7] }) 0
        (.memory (.bytes [3])) { writeLimit := some 2 } = .ok x ∧
      start (.upTo 9) (Text.ofString "<[.,]>.") none (some { tape := #[7, 5, 6], pointer := 1 }) 0
        (.memory (.bytes [3])) { writeLimit := some 2 } = .ok y ∧
      Mirrors (Config.rotate 1) x y := by
  have hrotate : State.rotate 1 { tape := #[5, 6, 7] } = { tape := #[7, 5, 6], pointer := 1 } := by
    decide
  rw [← hrotate]
  exact mirrors_rotate rfl { tape := #[5, 6, 7] } ⟨by decide, by decide⟩ 1 _ 0 _ _

end Execution

end Brainfuck
