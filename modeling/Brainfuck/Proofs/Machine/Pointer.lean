import Brainfuck.Proofs.Comment.Erasure
import Brainfuck.Proofs.Machine.Tape
import Brainfuck.Proofs.Machine.Trace

/-! Pointers that nobody has checked. A pointer below zero counts from the end of the tape, as far
as the tape reaches, and is as good as the pointer to the same cell from the start; the first move
makes them equal. A pointer further off is harmless to comments and put right by a move, and any
other command fails on it. -/

namespace Brainfuck

namespace State

/-- The pointer addresses a cell: from the start of the tape or, below zero, from its end. -/
structure Addresses (s : State) : Prop where
  neg_size_le : -(s.tape.size : Int) ≤ s.pointer
  pointer_lt : s.pointer < s.tape.size

/-- The state with its pointer brought onto the tape, round the end as often as need be. -/
def normalize (s : State) : State :=
  { s with pointer := s.pointer % s.tape.size }

variable {s : State}

theorem inRange_normalize (h : 0 < s.tape.size) : s.normalize.InRange :=
  ⟨Int.emod_nonneg _ (by omega), Int.emod_lt_of_pos _ (by omega)⟩

theorem InRange.normalize_eq (h : s.InRange) : s.normalize = s := by
  rw [normalize, Int.emod_eq_of_lt h.pointer_nonneg h.pointer_lt]

theorem InRange.addresses (h : s.InRange) : s.Addresses := by
  have h₀ := h.pointer_nonneg
  exact ⟨by omega, h.pointer_lt⟩

namespace Addresses

theorem size_pos (h : s.Addresses) : 0 < s.tape.size := by
  have h₀ := h.neg_size_le
  have h₁ := h.pointer_lt
  omega

theorem cellIndex_eq (h : s.Addresses) :
    cellIndex s.tape.size s.pointer = .ok (s.pointer % s.tape.size).toNat := by
  have h₀ := h.neg_size_le
  have h₁ := h.pointer_lt
  rcases Int.lt_or_le s.pointer 0 with hneg | hpos
  · have hmod : s.pointer % s.tape.size = s.tape.size + s.pointer := by
      rw [← Int.add_emod_left, Int.emod_eq_of_lt (by omega) (by omega)]
    rw [cellIndex, Offset.index?, if_neg (by omega), if_pos (by omega), hmod]
  · rw [Int.emod_eq_of_lt hpos h₁]
    exact InRange.cellIndex_eq ⟨hpos, h₁⟩

theorem keepsCell_normalize (h : s.Addresses) :
    s.KeepsCell id (fun size p => p % size) (s.pointer % s.tape.size).toNat
      (s.pointer % s.tape.size).toNat :=
  ⟨h.cellIndex_eq, (inRange_normalize h.size_pos).cellIndex_eq, rfl, fun _ => rfl⟩

end Addresses

theorem keepsMove_normalize (s : State) (distance : Int) :
    s.KeepsMove id (fun size p => p % size) distance := by
  rw [KeepsMove, id, Int.emod_emod, Int.emod_add_emod]

/-- Off the tape in either direction there is no cell. -/
theorem cellIndex_of_not_addresses (h : ¬ s.Addresses) :
    cellIndex s.tape.size s.pointer =
      .error (if Offset.isWide s.pointer then .pointerTooWide else .pointerOutside) := by
  have hout : s.pointer < -(s.tape.size : Int) ∨ (s.tape.size : Int) ≤ s.pointer := by
    by_contra hin
    exact h ⟨by omega, by omega⟩
  have hindex : Offset.index? s.tape.size s.pointer = none := by
    rw [Offset.index?]
    split_ifs <;> first | rfl | omega
  rw [cellIndex, hindex]

end State

/-! ### What becomes of the pointer -/

namespace Config

/-- The pointer of `d` is that of `c`, on a tape with as many cells. -/
structure Anchored (c d : Config) : Prop where
  size_eq : d.state.tape.size = c.state.tape.size
  pointer_eq : d.state.pointer = c.state.pointer

def normalize (c : Config) : Config :=
  { c with state := c.state.normalize }

variable {c d : Config}

theorem anchored_modify (c : Config) (change : UInt8 → UInt8) :
    c.Anchored (c.modify change).config := by
  unfold modify
  split
  · exact ⟨rfl, rfl⟩
  · exact ⟨by simp [Progress.config, next], rfl⟩

theorem anchored_write (c : Config) : c.Anchored c.write.config := by
  unfold write
  repeat' split
  all_goals exact ⟨rfl, rfl⟩

theorem anchored_read (c : Config) : c.Anchored c.read.config := by
  simp only [read]
  cases (c.input.read 1).1.byte? with
  | error e => exact ⟨rfl, rfl⟩
  | ok b? =>
    simp only
    cases State.cellIndex c.state.tape.size c.state.pointer with
    | error e => exact ⟨rfl, rfl⟩
    | ok i => cases b? <;> exact ⟨by simp [Progress.config, next, State.receive, State.store], rfl⟩

theorem anchored_branch (c : Config) (slots : Array (Option Int)) (taken : UInt8 → Bool) :
    c.Anchored (c.branch slots taken).config := by
  unfold branch
  repeat' split
  all_goals exact ⟨rfl, rfl⟩

theorem Anchored.inRange (h : c.Anchored d) (hc : c.state.InRange) : d.state.InRange :=
  ⟨by rw [h.pointer_eq]; exact hc.pointer_nonneg,
    by rw [h.pointer_eq, h.size_eq]; exact hc.pointer_lt⟩

theorem Anchored.addresses (h : c.Anchored d) (hc : c.state.Addresses) : d.state.Addresses :=
  ⟨by rw [h.pointer_eq, h.size_eq]; exact hc.neg_size_le,
    by rw [h.pointer_eq, h.size_eq]; exact hc.pointer_lt⟩

end Config

namespace Image

variable {image : Image} {c d b : Config} {n : Nat}

theorem anchored_perform (image : Image) {i : Option Command} (hr : i ≠ some .right)
    (hl : i ≠ some .left) (c : Config) : c.Anchored (image.perform i c).config := by
  cases i with
  | none => exact ⟨rfl, rfl⟩
  | some i =>
    cases i with
    | right => exact absurd rfl hr
    | left => exact absurd rfl hl
    | increment => exact c.anchored_modify _
    | decrement => exact c.anchored_modify _
    | output => exact c.anchored_write
    | input => exact c.anchored_read
    | loopStart => exact c.anchored_branch _ _
    | loopEnd => exact c.anchored_branch _ _

theorem anchored_step (hr : image.instruction c ≠ some .right)
    (hl : image.instruction c ≠ some .left) : c.Anchored (image.step c).config := by
  rcases image.step_eq_perform c with h | ⟨-, h | h⟩
  · rw [h]
    have hp := image.anchored_perform hr hl c.tick
    exact ⟨hp.size_eq, hp.pointer_eq⟩
  · rw [h]
    exact ⟨rfl, rfl⟩
  · rw [h]
    exact ⟨rfl, rfl⟩

/-- A move leaves the pointer on the tape, wherever it was. -/
theorem inRange_of_step_move (hc : 0 < c.state.tape.size)
    (h : image.instruction c = some .right ∨ image.instruction c = some .left) :
    (image.step c).config.state.InRange := by
  have hsize : (0 : Int) < c.tick.state.tape.size := Int.ofNat_lt.mpr hc
  have hmove : ∀ distance, (c.tick.move distance).config.state.InRange := by
    intro distance
    rw [Config.move_of_pos (c := c.tick) hc]
    exact ⟨Int.emod_nonneg _ hsize.ne', Int.emod_lt_of_pos _ hsize⟩
  rcases h with h | h
  · rw [step_of_instruction h]
    exact hmove 1
  · rw [step_of_instruction h]
    exact hmove (-1)

theorem addresses_of_step (hc : c.state.Addresses) (hd : image.step c = .running d) :
    d.state.Addresses := by
  have hstep : (image.step c).config = d := by rw [hd]; rfl
  by_cases h : image.instruction c = some .right ∨ image.instruction c = some .left
  · exact hstep ▸ (inRange_of_step_move hc.size_pos h).addresses
  · obtain ⟨hr, hl⟩ := not_or.mp h
    exact hstep ▸ (anchored_step hr hl).addresses hc

/-! ### Pointers that address a cell -/

theorem step_normalize (image : Image) (h : c.state.Addresses) :
    image.step c.normalize = (image.step c).map Config.normalize :=
  image.step_retape h.keepsCell_normalize (fun _ => c.state.keepsMove_normalize 1)
    fun _ => c.state.keepsMove_normalize (-1)

theorem advance_normalize (image : Image) (h : c.state.Addresses) (n : Nat) :
    image.advance n c.normalize = (image.advance n c).map Config.normalize :=
  advance_map (P := fun c => c.state.Addresses) (fun _ _ => addresses_of_step)
    (fun _ hc => image.step_normalize hc) h n

theorem uses_succ_of_ne {command : Command} (hb : image.advance n c = .running b)
    (h : image.instruction b ≠ some command) :
    image.uses command (n + 1) c = image.uses command n c := by
  rcases image.trace_succ n c with ⟨b', d, hb', hd, -⟩ | ht
  · obtain rfl := Progress.running.inj (hb.symm.trans hb')
    rw [uses_succ_of_step hb hd, if_neg h, List.append_nil]
  · rw [uses, uses, ht]

/-- Once a move was carried out, the pointer is on the tape. -/
theorem inRange_of_moved (hc : c.state.Addresses)
    (h : image.uses .right n c ≠ [] ∨ image.uses .left n c ≠ []) :
    (image.advance n c).config.state.InRange := by
  induction n with
  | zero => simp [uses, trace] at h
  | succ n ih =>
    by_cases hrunning : ∃ b, image.advance n c = .running b
    · obtain ⟨b, hn⟩ := hrunning
      have hb : b.state.Addresses :=
        advance_invariant (P := fun c => c.state.Addresses) (fun _ _ => addresses_of_step) hc hn
      rw [advance_succ_last, hn]
      by_cases hi : image.instruction b = some .right ∨ image.instruction b = some .left
      · exact inRange_of_step_move hb.size_pos hi
      · obtain ⟨hr, hl⟩ := not_or.mp hi
        rw [uses_succ_of_ne hn hr, uses_succ_of_ne hn hl] at h
        have hin := ih h
        rw [hn] at hin
        exact (anchored_step hr hl).inRange hin
    · have hsame := advance_succ_of_ended fun d hd => hrunning ⟨d, hd⟩
      have hended : ∀ d, image.advance (n + 1) c ≠ .running d := fun d hd =>
        hrunning ⟨d, hsame.symm.trans hd⟩
      rw [uses_succ_of_ended hended, uses_succ_of_ended hended] at h
      rw [hsame]
      exact ih h

end Image

/-! ### Pointers off the tape -/

/-- The first command of the text is at the position `i`. -/
structure Text.FirstCommand (code : Text) (i : Nat) (command : Command) : Prop where
  command_at : code[i]? = some command.codePoint
  comments_before : ∀ j < i, code.CommentAt j

/-- The machine `s` after `i` comments at the start of its program. -/
def Config.past (s : State) (input : Input) (sink : Sink) (i : Nat) : Config :=
  { state := { s with position := i, steps := s.steps + i }, input, sink }

theorem Text.commentAt_of_commands_eq_nil {code : Text} (h : code.commands = []) {j : Nat}
    (hj : j < code.length) : code.CommentAt j := by
  have hx : Command.ofCodePoint? code[j] = none :=
    List.filterMap_eq_nil_iff.mp h _ (List.getElem_mem hj)
  rw [CommentAt, List.getElem?_eq_getElem hj, Option.map_some, hx]

namespace Image

variable {code : Text} {t : JumpTable} {s : State} {input : Input} {sink : Sink} {i : Nat}
  {command : Command}

theorem advance_comments (t : JumpTable) (s : State) (input : Input) (sink : Sink)
    (h : ∀ j < i, code.CommentAt j) :
    (ofTable code t).advance i (Config.start s input sink) =
      .running (Config.past s input sink i) := by
  induction i with
  | zero => simp [Config.start, Config.past]
  | succ i ih =>
    obtain ⟨x, hx, hi⟩ := Option.map_eq_some_iff.mp (h i (Nat.lt_succ_self i))
    have hstep : (ofTable code t).step (Config.past s input sink i) =
        .running (Config.past s input sink i).tick.next := by
      rw [step_of_getElem? rfl hx, hi]
      rfl
    rw [advance_succ_last, ih fun j hj => h j (by omega)]
    refine hstep.trans (congrArg Progress.running ?_)
    simp [Config.past, Config.tick, Config.next, Int.add_assoc]

theorem step_past (h : code[i]? = some command.codePoint) :
    (ofTable code t).step (Config.past s input sink i) =
      (ofTable code t).perform (some command) (Config.past s input sink i).tick := by
  rw [step_of_getElem? rfl h, Command.ofCodePoint?_codePoint]

/-- The first move leads to the same cell from a pointer and from where it is on the ring. -/
theorem step_past_normalize (hs : 0 < s.tape.size) (h : code[i]? = some command.codePoint)
    (hc : command = .right ∨ command = .left) :
    (ofTable code t).step (Config.past s.normalize input sink i) =
      (ofTable code t).step (Config.past s input sink i) := by
  have hmove : ∀ distance, (Config.past s.normalize input sink i).tick.move distance =
      (Config.past s input sink i).tick.move distance := by
    intro distance
    rw [Config.move_of_pos hs, Config.move_of_pos hs]
    simp [Config.past, Config.tick, State.normalize]
  rw [step_past h, step_past h]
  rcases hc with rfl | rfl
  · exact hmove 1
  · exact hmove (-1)

/-- A command that needs the cell fails if there is none; a read has then used up its element. -/
theorem perform_of_cellIndex_error (image : Image) {c : Config} {e : Error} {unread : Source}
    (hu : c.input = .memory unread)
    (he : State.cellIndex c.state.tape.size c.state.pointer = .error e) (hr : command ≠ .right)
    (hl : command ≠ .left) :
    image.perform (some command) c = .failed e { c with
      input := .memory (if command = .input then unread.drop 1 else unread) } := by
  obtain ⟨state, _, sink, missed⟩ := c
  obtain rfl := hu
  have hcell : state.cell = .error e := by rw [State.cell, he]; rfl
  have hharmless : (Reply.data (unread.take 1)).Harmless := by
    cases unread with
    | bytes bs => trivial
    | text x => exact List.length_take_le 1 x
  have hread : (Input.memory unread).read 1 =
      (.data (unread.take 1), .memory (unread.drop 1)) := rfl
  cases command with
  | right => exact absurd rfl hr
  | left => exact absurd rfl hl
  | increment => simp [perform, Config.modify, he]
  | decrement => simp [perform, Config.modify, he]
  | output => simp [perform, Config.write, hcell]
  | input => simp [perform, Config.read, hread, hharmless.byte?_eq, he, Reply.missed?]
  | loopStart => simp [perform, Config.branch, hcell]
  | loopEnd => simp [perform, Config.branch, hcell]

theorem step_past_of_not_addresses (t : JumpTable) (unread : Source) (sink : Sink)
    (hs : ¬ s.Addresses) (h : code[i]? = some command.codePoint) (hr : command ≠ .right)
    (hl : command ≠ .left) :
    (ofTable code t).step (Config.past s (.memory unread) sink i) =
      .failed (if Offset.isWide s.pointer then .pointerTooWide else .pointerOutside)
        { state := { s with position := i, steps := s.steps + (i + 1) }
          input := .memory (if command = .input then unread.drop 1 else unread)
          sink } := by
  have hinput : (Config.past s (.memory unread) sink i).tick.input = .memory unread := rfl
  have he := State.cellIndex_of_not_addresses hs
  rw [step_past h, perform_of_cellIndex_error _ hinput he hr hl]
  simp [Config.past, Config.tick, Int.add_assoc]

end Image

namespace Execution

/-- The run `x` starts from a pointer that addresses a cell, and `y` from the same cell counted from
the start of the tape. -/
structure Aliases (x y : Execution) : Prop where
  mirrors : Mirrors Config.normalize x y
  onlyEnds : x.OnlyEnds
  /-- After a move there is no difference left. -/
  moved : ∀ n, x.image.uses .right n x.config ≠ [] ∨ x.image.uses .left n x.config ≠ [] →
    y.image.advance n y.config = x.image.advance n x.config

/-- The run `x` starts in the state `s`, whose pointer addresses no cell, and `y` from where that
pointer is on the ring. -/
structure StartsOff (x y : Execution) (code : Text) (s : State) (unread : Source) (sink : Sink) :
    Prop where
  /-- Without commands nothing happens to the pointer. -/
  idle : code.commands = [] → ∀ n, code.length < n → x.run n = some ⟨none, {
    state := { s with position := code.length, steps := s.steps + code.length }
    input := .memory unread
    sink }⟩
  /-- A move brings the pointer onto the tape. -/
  recovers : ∀ i command, code.FirstCommand i command → command = .right ∨ command = .left →
    ∀ n, x.run n = y.run n
  /-- Any other command fails; a read has used up its element by then. -/
  fails : ∀ i command, code.FirstCommand i command → command ≠ .right → command ≠ .left →
    ∀ n, i < n → x.run n = some ⟨some (if Offset.isWide s.pointer then .pointerTooWide
      else .pointerOutside), {
        state := { s with position := i, steps := s.steps + (i + 1) }
        input := .memory (if command = .input then unread.drop 1 else unread)
        sink }⟩

variable {code : Text} {t : JumpTable} {s : State}

theorem aliases_normalize (ht : t.Holds code code.length) (hb : code.Balanced)
    (hs : s.Addresses) (unread : Source) {sink : Sink} (hk : sink.NeverFails) :
    Aliases ⟨Image.ofTable code t, Config.start s (.memory unread) sink⟩
      ⟨Image.ofTable code t, Config.start s.normalize (.memory unread) sink⟩ := by
  have hstart : (Config.start s (.memory unread) sink).state.Addresses :=
    ⟨hs.neg_size_le, hs.pointer_lt⟩
  have hmirrors : Mirrors Config.normalize
      ⟨Image.ofTable code t, Config.start s (.memory unread) sink⟩
      ⟨Image.ofTable code t, Config.start s.normalize (.memory unread) sink⟩ :=
    mirrors_of_advance ((Image.ofTable code t).advance_normalize hstart)
  refine ⟨hmirrors, ?_, fun n hmoved => ?_⟩
  · rintro n ⟨e?, d⟩ ho
    -- the other run can only come to its end
    have hy := hmirrors.run_eq n
    rw [ho, Option.map_some] at hy
    obtain rfl : e? = none := error?_of_reliable ht hb
      (Config.inside_start code (State.inRange_normalize hs.size_pos) _ _) ⟨⟨unread, rfl⟩, hk⟩ hy
    rw [run, Progress.outcome?_eq_finished] at ho
    exact ⟨rfl, Image.exists_running_of_finished ho⟩
  · have hin := Image.inRange_of_moved hstart hmoved
    rw [hmirrors.advance_eq n]
    cases hn : (Image.ofTable code t).advance n (Config.start s (.memory unread) sink) <;>
    · rw [hn] at hin
      simp only [Progress.map, Config.normalize, Progress.config] at hin ⊢
      rw [hin.normalize_eq]

theorem startsOff_normalize (hs : 0 < s.tape.size) (ha : ¬ s.Addresses) (unread : Source)
    (sink : Sink) :
    StartsOff ⟨Image.ofTable code t, Config.start s (.memory unread) sink⟩
      ⟨Image.ofTable code t, Config.start s.normalize (.memory unread) sink⟩ code s unread
      sink := by
  refine ⟨fun hc n hn => ?_, fun i command hfirst hc n => ?_, fun i command hfirst hr hl n hn => ?_⟩
  · have hcomments := Image.advance_comments t s (.memory unread) sink fun j hj =>
      Text.commentAt_of_commands_eq_nil hc hj
    have hend : (Image.ofTable code t).advance (code.length + 1)
        (Config.start s (.memory unread) sink) =
          .finished (Config.past s (.memory unread) sink code.length) := by
      rw [Image.advance_succ_last, hcomments]
      exact Image.step_of_length_le le_rfl
    obtain ⟨k, rfl⟩ := Nat.exists_eq_add_of_le hn
    exact Image.outcome?_advance_add (Progress.outcome?_eq_finished.mpr hend) k
  · have hbefore := fun s => Image.advance_comments t s (.memory unread) sink
      hfirst.comments_before
    rcases Nat.lt_or_ge i n with hn | hn
    · obtain ⟨k, rfl⟩ : ∃ k, n = i + (k + 1) := ⟨n - i - 1, by omega⟩
      rw [run, run, Image.advance_trans (hbefore s),
        Image.advance_trans (hbefore s.normalize), Image.advance_succ, Image.advance_succ,
        Image.step_past_normalize hs hfirst.command_at hc]
    · -- neither run has come to the move yet
      have hrunning := fun s => Image.advance_comments t s (.memory unread) sink
        fun j (hj : j < n) => hfirst.comments_before j (by omega)
      rw [run, run, hrunning s, hrunning s.normalize]
      rfl
  · have hstep := Image.step_past_of_not_addresses t unread sink ha hfirst.command_at hr hl
    obtain ⟨k, rfl⟩ := Nat.exists_eq_add_of_le hn
    refine Image.outcome?_advance_add (Progress.outcome?_eq_failed.mpr ?_) k
    rw [Image.advance_succ_last, Image.advance_comments t s _ sink hfirst.comments_before]
    exact hstep

/-- A pointer that addresses a cell, from whichever end of the tape, makes a run like that from the
cell itself; one that addresses none is put right by a move, and makes any other command fail. -/
theorem aliases_or_startsOff (h : JumpTable.resolve code = .ok t) (s : State)
    (hs : 0 < s.tape.size) (memory : Memory) (tapeSize : Int) (unread : Source) (sink : Sink)
    (hk : sink.NeverFails) :
    ∃ x y, start memory code none (some s) tapeSize (.memory unread) sink = .ok x ∧
      start memory code none (some s.normalize) tapeSize (.memory unread) sink = .ok y ∧
      (s.Addresses → x.Aliases y) ∧ (¬ s.Addresses → x.StartsOff y code s unread sink) := by
  have ht := JumpTable.holds_of_resolve h
  have hb := JumpTable.balanced_of_resolve h
  have hstart := fun s => start_of_resolve h memory s tapeSize (.memory unread) sink
  refine ⟨_, _, hstart s, hstart s.normalize, fun ha => ?_, fun ha => ?_⟩
  · exact aliases_normalize ht hb ha unread hk
  · exact startsOff_normalize hs ha unread sink

/-- A pointer that counts from the end of the tape, and one that is off the tape, where a read fails
behind a comment and takes its byte along. -/
theorem aliases_or_startsOff_both :
    (∃ x y, start (.upTo 9) (Text.ofString ",[.-]<.") none
        (some { tape := #[1, 2, 3], pointer := -2 }) 0 (.memory (.bytes [2])) {} = .ok x ∧
      start (.upTo 9) (Text.ofString ",[.-]<.") none
        (some { tape := #[1, 2, 3], pointer := 1 }) 0 (.memory (.bytes [2])) {} = .ok y ∧
      x.Aliases y) ∧
    ∃ x, start (.upTo 9) (Text.ofString "a,") none (some { tape := #[1, 2, 3], pointer := 7 }) 0
        (.memory (.bytes [5, 6])) {} = .ok x ∧
      ∀ n, 1 < n → x.run n = some ⟨some .pointerOutside, {
        state := { tape := #[1, 2, 3], pointer := 7, position := 1, steps := 2 }
        input := .memory (.bytes [6])
        sink := {} }⟩ := by
  have hk : Sink.NeverFails {} := ⟨rfl, fun _ => rfl⟩
  constructor
  · obtain ⟨x, y, hx, hy, haliases, -⟩ := aliases_or_startsOff
      (show JumpTable.resolve (Text.ofString ",[.-]<.") = .ok _ from rfl)
      { tape := #[1, 2, 3], pointer := -2 } (by decide) (.upTo 9) 0 (.bytes [2]) {} hk
    exact ⟨x, y, hx, hy, haliases ⟨by decide, by decide⟩⟩
  · obtain ⟨x, y, hx, -, -, hoff⟩ := aliases_or_startsOff
      (show JumpTable.resolve (Text.ofString "a,") = .ok _ from rfl)
      { tape := #[1, 2, 3], pointer := 7 } (by decide) (.upTo 9) 0 (.bytes [5, 6]) {} hk
    have hfirst : (Text.ofString "a,").FirstCommand 1 .input := by
      refine ⟨rfl, fun j hj => ?_⟩
      obtain rfl : j = 0 := by omega
      rfl
    exact ⟨x, hx, (hoff fun ha => absurd ha.pointer_lt (by decide)).fails 1 .input hfirst
      (by decide) (by decide)⟩

end Execution

end Brainfuck
