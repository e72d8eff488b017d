import Brainfuck.Proofs.Machine.Run
import Brainfuck.Proofs.Machine.Simulation

/-! Changes of the tape. All that a program can tell of its tape is the cell at the pointer. So if a
change of the tape takes the pointer along with its cell, at every machine of a run and in every
move, the run on the changed tape goes through the changed machines. -/

namespace Brainfuck

namespace State

/-- Change the tape, and the pointer by what its number of cells asks for. -/
def retape (f : Array UInt8 → Array UInt8) (g : Nat → Int → Int) (s : State) : State :=
  { s with
    tape := f s.tape
    pointer := g s.tape.size s.pointer }

/-- The change takes the cell at the pointer from the index `i` to the index `j`. -/
structure KeepsCell (f : Array UInt8 → Array UInt8) (g : Nat → Int → Int) (s : State)
    (i j : Nat) : Prop where
  index_eq : cellIndex s.tape.size s.pointer = .ok i
  retape_index_eq : cellIndex (f s.tape).size (g s.tape.size s.pointer) = .ok j
  getD_eq : (f s.tape).getD j 0 = s.tape.getD i 0
  store_eq : ∀ b, f (s.tape.setIfInBounds i b) = (f s.tape).setIfInBounds j b

/-- The change takes the pointer along in a move. -/
def KeepsMove (f : Array UInt8 → Array UInt8) (g : Nat → Int → Int) (s : State)
    (distance : Int) : Prop :=
  g s.tape.size ((s.pointer + distance) % s.tape.size) =
    (g s.tape.size s.pointer + distance) % (f s.tape).size

theorem lt_of_cellIndex {size i : Nat} {pointer : Int} (h : cellIndex size pointer = .ok i) :
    i < size := by
  unfold cellIndex at h
  split at h
  · obtain rfl := Except.ok.inj h
    exact Offset.lt_of_index? ‹_›
  · simp at h

theorem modify_eq_setIfInBounds (tape : Array UInt8) (i : Nat) (change : UInt8 → UInt8) :
    tape.modify i change = tape.setIfInBounds i (change (tape.getD i 0)) := by
  apply Array.ext_getElem?
  intro k
  rw [Array.getElem?_modify, Array.getElem?_setIfInBounds]
  by_cases hk : i = k
  · subst hk
    rcases Nat.lt_or_ge i tape.size with hlt | hge
    · simp [hlt]
    · simp [hge]
  · rw [if_neg hk, if_neg hk]

namespace KeepsCell

variable {f : Array UInt8 → Array UInt8} {g : Nat → Int → Int} {s : State} {i j : Nat}

theorem cell_eq (h : s.KeepsCell f g i j) : (s.retape f g).cell = s.cell := by
  simp only [cell, retape, h.index_eq, h.retape_index_eq]
  exact congrArg Except.ok h.getD_eq

theorem modify_eq (h : s.KeepsCell f g i j) (change : UInt8 → UInt8) :
    f (s.tape.modify i change) = (f s.tape).modify j change := by
  rw [modify_eq_setIfInBounds, modify_eq_setIfInBounds, h.store_eq, h.getD_eq]

theorem receive_eq (h : s.KeepsCell f g i j) (b? : Option UInt8) :
    (s.retape f g).receive j b? = (s.receive i b?).retape f g := by
  cases b? <;> simp [receive, store, retape, h.store_eq]

end KeepsCell

end State

namespace Config

def retape (f : Array UInt8 → Array UInt8) (g : Nat → Int → Int) (c : Config) : Config :=
  { c with state := c.state.retape f g }

variable {f : Array UInt8 → Array UInt8} {g : Nat → Int → Int} {c : Config} {i j : Nat}

theorem move_of_pos (h : 0 < c.state.tape.size) (distance : Int) :
    c.move distance = .running (next { c with state := { c.state with
      pointer := (c.state.pointer + distance) % c.state.tape.size } }) :=
  if_neg (by omega)

theorem retape_move (h : c.state.KeepsCell f g i j) {distance : Int}
    (hm : c.state.KeepsMove f g distance) :
    (c.retape f g).move distance = (c.move distance).map (retape f g) := by
  have hi : 0 < c.state.tape.size := Nat.zero_lt_of_lt (State.lt_of_cellIndex h.index_eq)
  have hj : 0 < (c.retape f g).state.tape.size :=
    Nat.zero_lt_of_lt (State.lt_of_cellIndex h.retape_index_eq)
  rw [move_of_pos hi, move_of_pos hj]
  simp only [Progress.map, next, retape, State.retape, hm.symm]

theorem retape_modify (h : c.state.KeepsCell f g i j) (change : UInt8 → UInt8) :
    (c.retape f g).modify change = (c.modify change).map (retape f g) := by
  simp only [modify, retape, State.retape, h.index_eq, h.retape_index_eq]
  simp [Progress.map, next, retape, State.retape, h.modify_eq]

theorem retape_write (h : c.state.KeepsCell f g i j) :
    (c.retape f g).write = c.write.map (retape f g) := by
  simp only [write, retape, h.cell_eq]
  cases c.state.cell with
  | error e => rfl
  | ok b =>
    simp only
    cases c.sink.put b with
    | mk f? sink => cases f? <;> rfl

theorem retape_read (h : c.state.KeepsCell f g i j) :
    (c.retape f g).read = c.read.map (retape f g) := by
  have hj : State.cellIndex (c.state.retape f g).tape.size (c.state.retape f g).pointer = .ok j :=
    h.retape_index_eq
  simp only [read, retape, h.index_eq, hj]
  cases c.input.read 1 with
  | mk reply input =>
    simp only
    cases reply.byte? with
    | error e => rfl
    | ok b? =>
      simp only [h.receive_eq b?]
      cases b? <;> rfl

theorem retape_branch (h : c.state.KeepsCell f g i j) (slots : Array (Option Int))
    (taken : UInt8 → Bool) :
    (c.retape f g).branch slots taken = (c.branch slots taken).map (retape f g) := by
  have hp : (c.state.retape f g).position = c.state.position := rfl
  simp only [branch, retape, h.cell_eq, hp]
  cases c.state.cell with
  | error e => rfl
  | ok b =>
    simp only
    split_ifs with hb
    · cases Offset.index? slots.size c.state.position with
      | none => rfl
      | some k =>
        simp only
        cases slots.getD k none <;> rfl
    · rfl

end Config

namespace Image

variable {f : Array UInt8 → Array UInt8} {g : Nat → Int → Int} {c : Config} {i j : Nat}

/-- Only moves look at more than the cell. -/
theorem perform_retape (image : Image) (h : c.state.KeepsCell f g i j) {command : Option Command}
    (hr : command = some .right → c.state.KeepsMove f g 1)
    (hl : command = some .left → c.state.KeepsMove f g (-1)) :
    image.perform command (c.retape f g) = (image.perform command c).map (Config.retape f g) := by
  cases command with
  | none => rfl
  | some command =>
    cases command with
    | right => exact Config.retape_move h (hr rfl)
    | left => exact Config.retape_move h (hl rfl)
    | increment => exact Config.retape_modify h _
    | decrement => exact Config.retape_modify h _
    | output => exact Config.retape_write h
    | input => exact Config.retape_read h
    | loopStart => exact Config.retape_branch h _ _
    | loopEnd => exact Config.retape_branch h _ _

theorem step_retape (image : Image) (h : c.state.KeepsCell f g i j)
    (hr : image.instruction c = some .right → c.state.KeepsMove f g 1)
    (hl : image.instruction c = some .left → c.state.KeepsMove f g (-1)) :
    image.step (c.retape f g) = (image.step c).map (Config.retape f g) := by
  have hk : c.tick.state.KeepsCell f g i j :=
    ⟨h.index_eq, h.retape_index_eq, h.getD_eq, h.store_eq⟩
  exact step_map_of_perform rfl rfl (image.perform_retape hk hr hl)

end Image

namespace Execution

/-- At every moment the machine of `y` is that of `x`, changed by `f`; so `y` ends if and when `x`
does, and in the same way. -/
structure Mirrors (f : Config → Config) (x y : Execution) : Prop where
  advance_eq : ∀ n, y.image.advance n y.config = (x.image.advance n x.config).map f
  run_eq : ∀ n, y.run n = (x.run n).map (Outcome.map f)

theorem mirrors_of_advance {f : Config → Config} {x y : Execution}
    (h : ∀ n, y.image.advance n y.config = (x.image.advance n x.config).map f) :
    Mirrors f x y :=
  ⟨h, fun n => by rw [run, h, Progress.outcome?_map, run]⟩

end Execution

end Brainfuck
