import Brainfuck.Proofs.Comment.Rank
import Mathlib.Data.List.Basic
import Mathlib.Order.Lattice.Nat

/-! Collecting in pieces. All that a collector knows of the pieces it was fed is their commands in
a row, so it does not matter where one piece ends and the next begins. A collector that is not
strict keeps the first commands of the whole; a strict one keeps the pieces that found room when
they came. -/

namespace Brainfuck

namespace Source

/-- The commands among the elements of a source: among its bytes, or among its code points. -/
def elementCommands : Source → List Command
  | bytes bs => bs.filterMap Command.ofByte?
  | text t => t.filterMap Command.ofCodePoint?

theorem commands_eq_elementCommands (s : Source) : s.commands = s.elementCommands := by
  cases s with
  | bytes bs => rfl
  | text t => exact commands_text t

/-- Several pieces in one, byte after byte. -/
def concat (pieces : List Source) : Source := .bytes (pieces.flatMap toBytes)

theorem commands_concat (pieces : List Source) :
    (concat pieces).commands = pieces.flatMap elementCommands := by
  rw [commands, concat, toBytes, List.filterMap_flatMap]
  exact List.flatMap_congr fun s _ => s.commands_eq_elementCommands

end Source

namespace Collector

/-- The collector that was fed the commands `cs`. -/
def holding (capacity : Nat) (strict : Bool) (cs : List Command) : Collector where
  capacity := capacity
  strict := strict
  truncated := capacity < cs.length
  kept := (cs.take capacity).toArray

variable {capacity : Nat} {strict : Bool} {cs : List Command} {piece : Source}

@[simp]
theorem size_holding : (holding capacity strict cs).size = min capacity cs.length := by
  simp [holding, size]

@[simp]
theorem isFull_holding : (holding capacity strict cs).isFull = decide (capacity ≤ cs.length) := by
  rw [isFull, size_holding]
  simp [holding]

theorem new_eq_holding (h : 0 < capacity) (strict : Bool) :
    new capacity strict = .ok (holding capacity strict []) := by
  simp [new, h, holding]

theorem feed_holding_of_le (strict : Bool) (h : cs.length + piece.commands.length ≤ capacity) :
    (holding capacity strict cs).feed piece =
      (holding capacity strict (cs ++ piece.commands)).accepted := by
  have hroom : piece.commands.length ≤ capacity - min capacity cs.length := by omega
  have hcs : cs.length ≤ capacity := by omega
  have hl : (cs ++ piece.commands).length ≤ capacity := by rwa [List.length_append]
  simp only [feed, size_holding, show (holding capacity strict cs).capacity = capacity from rfl,
    if_pos hroom]
  simp only [holding, List.take_of_length_le hl, List.take_of_length_le hcs,
    Nat.not_lt.mpr hl, Nat.not_lt.mpr hcs]
  simp

/-- A strict collector refuses a piece that has no room. -/
theorem feed_holding_strict (hc : cs.length ≤ capacity)
    (h : capacity < cs.length + piece.commands.length) :
    (holding capacity true cs).feed piece =
      (.error (.rejected (.tooLong capacity)), holding capacity true cs) := by
  have hroom : ¬ piece.commands.length ≤ capacity - min capacity cs.length := by omega
  simp only [feed, size_holding, show (holding capacity true cs).capacity = capacity from rfl,
    if_neg hroom]
  rfl

/-- A collector that is not strict takes any piece as if it came with what was fed before. -/
theorem feed_holding_lenient (capacity : Nat) (cs : List Command) (piece : Source) :
    (holding capacity false cs).feed piece =
      (holding capacity false (cs ++ piece.commands)).accepted := by
  rcases Nat.lt_or_ge capacity (cs.length + piece.commands.length) with hlt | hle
  · rcases Nat.eq_zero_or_pos piece.commands.length with h₀ | hpos
    · -- nothing comes, and what came before was too much already
      have hnil := List.eq_nil_of_length_eq_zero h₀
      simp [feed, hnil]
    · have hroom : ¬ piece.commands.length ≤ capacity - cs.length := by omega
      have htake : capacity - min capacity cs.length = capacity - cs.length := by omega
      have hl : capacity < (cs ++ piece.commands).length := by rwa [List.length_append]
      simp only [feed, size_holding, show (holding capacity false cs).capacity = capacity from rfl,
        if_neg hroom, htake]
      simp only [holding, List.take_append, hl]
      simp
  · exact feed_holding_of_le false hle

/-- The collector that a piece was fed to, unless it was refused. -/
def fed (c : Collector) (piece : Source) : Except Error Collector :=
  (c.feed piece).1.map fun _ => (c.feed piece).2

theorem fed_of_accepted {c d : Collector} (h : c.feed piece = d.accepted) :
    c.fed piece = .ok d := by
  rw [fed, h]
  rfl

theorem fed_of_refused {c d : Collector} {e : Error} (h : c.feed piece = (.error e, d)) :
    c.fed piece = .error e := by
  rw [fed, h]
  rfl

/-- A piece that comes after another is fed as if both came at once. -/
theorem fed_holding_append {a b : Source} (h : piece.commands = a.commands ++ b.commands)
    (ha : strict = true → cs.length + a.commands.length ≤ capacity) :
    (holding capacity strict (cs ++ a.commands)).fed b =
      (holding capacity strict cs).fed piece := by
  cases strict with
  | false =>
    rw [fed_of_accepted (feed_holding_lenient ..), fed_of_accepted (feed_holding_lenient ..), h,
      List.append_assoc]
  | true =>
    have ha := ha rfl
    have hl : piece.commands.length = a.commands.length + b.commands.length := by
      rw [h, List.length_append]
    rcases Nat.lt_or_ge capacity (cs.length + piece.commands.length) with hlt | hle
    · rw [fed_of_refused (feed_holding_strict (by rwa [List.length_append])
        (by rw [List.length_append]; omega)), fed_of_refused (feed_holding_strict (by omega) hlt)]
    · rw [fed_of_accepted (feed_holding_of_le true (by rw [List.length_append]; omega)),
        fed_of_accepted (feed_holding_of_le true hle), h, List.append_assoc]

/-! ### The program of a source -/

theorem program_holding (capacity : Nat) (strict : Bool) (cs : List Command) :
    (holding capacity strict cs).program = ⟨cs.take capacity, capacity < cs.length, capacity⟩ := by
  simp [program, holding]

end Collector

namespace Source

variable {capacity : Nat}

theorem program_eq_map_fed (h₀ : 0 < capacity) (s : Source) (strict : Bool) :
    s.program capacity strict =
      ((Collector.holding capacity strict []).fed s).map Collector.program := by
  rw [program, Collector.new_eq_holding h₀, Collector.fed]
  change Except.map _ ((Collector.holding capacity strict []).feed s).1 = _
  cases ((Collector.holding capacity strict []).feed s).1 <;> rfl

theorem program_lenient (h₀ : 0 < capacity) (s : Source) :
    s.program capacity false =
      .ok ⟨s.commands.take capacity, capacity < s.commands.length, capacity⟩ := by
  rw [program_eq_map_fed h₀, Collector.fed_of_accepted (Collector.feed_holding_lenient ..),
    List.nil_append, Except.map, Collector.program_holding]

theorem program_strict_of_lt (h₀ : 0 < capacity) {s : Source}
    (h : capacity < s.elementCommands.length) :
    s.program capacity true = .error (.rejected (.tooLong capacity)) := by
  rw [← commands_eq_elementCommands] at h
  have hfeed := Collector.feed_holding_strict (Nat.zero_le capacity)
    (show capacity < ([] : List Command).length + s.commands.length by simpa using h)
  rw [program_eq_map_fed h₀, Collector.fed_of_refused hfeed, Except.map]

end Source

namespace Collector

/-! ### Pieces in a row -/

/-- The collector once pieces were offered one by one, whether it took them or not. -/
def offerAll (c : Collector) (pieces : List Source) : Collector :=
  pieces.foldl (fun c piece => (c.feed piece).2) c

/-- The piece with number `i` is refused when its turn comes. -/
def RefusedAt (c : Collector) (pieces : List Source) (i : Nat) : Prop :=
  ∃ piece e, pieces[i]? = some piece ∧ ((c.offerAll (pieces.take i)).feed piece).1 = .error e

/-- The pieces that find room when they come, if there is room for `room` commands at first. -/
def fitting : Nat → List Source → List Source
  | _, [] => []
  | room, piece :: pieces =>
    if piece.elementCommands.length ≤ room then
      piece :: fitting (room - piece.elementCommands.length) pieces
    else fitting room pieces

variable {pieces : List Source} {capacity : Nat} {cs : List Command} {piece : Source}

theorem offerAll_append (c : Collector) (pieces pieces' : List Source) :
    c.offerAll (pieces ++ pieces') = (c.offerAll pieces).offerAll pieces' :=
  List.foldl_append

theorem offerAll_concat (c : Collector) (pieces : List Source) (piece : Source) :
    c.offerAll (pieces ++ [piece]) = ((c.offerAll pieces).feed piece).2 :=
  offerAll_append c pieces [piece]

theorem accepted_eq (c : Collector) : c.accepted = (.ok (decide (c.size < c.capacity)), c) := by
  rw [accepted, isFull, ← decide_not, decide_eq_decide.mpr Nat.not_le]

theorem offerAll_lenient (capacity : Nat) (cs : List Command) (pieces : List Source) :
    (holding capacity false cs).offerAll pieces =
      holding capacity false (cs ++ pieces.flatMap Source.elementCommands) := by
  induction pieces generalizing cs with
  | nil => rw [List.flatMap_nil, List.append_nil, offerAll, List.foldl_nil]
  | cons piece pieces ih =>
    rw [offerAll, List.foldl_cons, feed_holding_lenient capacity cs piece, accepted, ← offerAll, ih,
      List.flatMap_cons, List.append_assoc, Source.commands_eq_elementCommands]

/-- The pieces that find room never exceed it. -/
theorem length_fitting_le (room : Nat) (pieces : List Source) :
    ((fitting room pieces).flatMap Source.elementCommands).length ≤ room := by
  induction pieces generalizing room with
  | nil => simp [fitting]
  | cons piece pieces ih =>
    rw [fitting]
    split_ifs with h
    · rw [List.flatMap_cons, List.length_append]
      have := ih (room - piece.elementCommands.length)
      omega
    · exact ih room

/-- A strict collector holds the pieces that found room. -/
theorem offerAll_strict (hc : cs.length ≤ capacity) (pieces : List Source) :
    (holding capacity true cs).offerAll pieces =
      holding capacity true
        (cs ++ (fitting (capacity - cs.length) pieces).flatMap Source.elementCommands) := by
  induction pieces generalizing cs with
  | nil => rw [fitting, List.flatMap_nil, List.append_nil, offerAll, List.foldl_nil]
  | cons piece pieces ih =>
    rw [offerAll, List.foldl_cons, ← offerAll, fitting]
    split_ifs with h
    · have hle : cs.length + piece.commands.length ≤ capacity := by
        rw [Source.commands_eq_elementCommands]
        omega
      rw [feed_holding_of_le true hle, accepted, ih (by rwa [List.length_append]),
        List.flatMap_cons, List.append_assoc, List.length_append, Nat.sub_sub,
        Source.commands_eq_elementCommands]
    · have hlt : capacity < cs.length + piece.commands.length := by
        rw [Source.commands_eq_elementCommands]
        omega
      rw [feed_holding_strict hc hlt, ih hc]

theorem offerAll_strict_nil (capacity : Nat) (pieces : List Source) :
    (holding capacity true []).offerAll pieces =
      holding capacity true ((fitting capacity pieces).flatMap Source.elementCommands) :=
  offerAll_strict (show ([] : List Command).length ≤ capacity from Nat.zero_le _) pieces

theorem fitting_of_length_le {room : Nat}
    (h : (pieces.flatMap Source.elementCommands).length ≤ room) : fitting room pieces = pieces := by
  induction pieces generalizing room with
  | nil => rfl
  | cons piece pieces ih =>
    rw [List.flatMap_cons, List.length_append] at h
    rw [fitting, if_pos (by omega), ih (by omega)]

theorem length_fitting_le_length (room : Nat) (pieces : List Source) :
    ((fitting room pieces).flatMap Source.elementCommands).length ≤
      (pieces.flatMap Source.elementCommands).length := by
  induction pieces generalizing room with
  | nil => simp [fitting]
  | cons piece pieces ih =>
    rw [fitting, List.flatMap_cons, List.length_append]
    split_ifs with h
    · rw [List.flatMap_cons, List.length_append]
      have := ih (room - piece.elementCommands.length)
      omega
    · have := ih room
      omega

/-! ### Refused pieces -/

/-- With the piece `i` the commands of the pieces come to be more than `capacity`. -/
def ExceedsAt (capacity : Nat) (pieces : List Source) (i : Nat) : Prop :=
  i < pieces.length ∧ capacity < ((pieces.take (i + 1)).flatMap Source.elementCommands).length

theorem length_take_succ {i : Nat} (h : pieces[i]? = some piece) :
    ((pieces.take (i + 1)).flatMap Source.elementCommands).length =
      ((pieces.take i).flatMap Source.elementCommands).length + piece.elementCommands.length := by
  simp [List.take_add_one, h]

theorem feed_offerAll_strict (capacity : Nat) (pieces : List Source) (piece : Source) :
    ((holding capacity true []).offerAll pieces).feed piece =
      if capacity < ((fitting capacity pieces).flatMap Source.elementCommands).length +
          piece.elementCommands.length then
        (.error (.rejected (.tooLong capacity)), (holding capacity true []).offerAll pieces)
      else ((holding capacity true []).offerAll (pieces ++ [piece])).accepted := by
  have hle := length_fitting_le capacity pieces
  rw [offerAll_concat, offerAll_strict_nil, ← Source.commands_eq_elementCommands]
  split_ifs with h
  · exact feed_holding_strict hle h
  · rw [feed_holding_of_le true (Nat.not_lt.mp h)]
    rfl

theorem refusedAt_iff (i : Nat) :
    (holding capacity true []).RefusedAt pieces i ↔ ∃ piece, pieces[i]? = some piece ∧
      capacity < ((fitting capacity (pieces.take i)).flatMap Source.elementCommands).length +
        piece.elementCommands.length := by
  simp only [RefusedAt, feed_offerAll_strict]
  constructor
  · rintro ⟨piece, e, hi, he⟩
    refine ⟨piece, hi, ?_⟩
    by_contra hle
    rw [if_neg hle] at he
    cases he
  · rintro ⟨piece, hi, hlt⟩
    exact ⟨piece, _, hi, by rw [if_pos hlt]⟩

theorem exceedsAt_of_refusedAt {i : Nat} (h : (holding capacity true []).RefusedAt pieces i) :
    ExceedsAt capacity pieces i := by
  obtain ⟨piece, hi, hlt⟩ := (refusedAt_iff i).mp h
  refine ⟨(List.getElem?_eq_some_iff.mp hi).1, ?_⟩
  have := length_fitting_le_length capacity (pieces.take i)
  rw [length_take_succ hi]
  omega

/-- Up to the first piece that is too much all pieces were kept, so that piece is refused. -/
theorem refusedAt_of_isLeast {k : Nat} (h : IsLeast {i | ExceedsAt capacity pieces i} k) :
    (holding capacity true []).RefusedAt pieces k := by
  obtain ⟨hk, hlt⟩ := h.1
  have hi : pieces[k]? = some pieces[k] := List.getElem?_eq_getElem hk
  have hle : ((pieces.take k).flatMap Source.elementCommands).length ≤ capacity := by
    cases k with
    | zero => simp
    | succ k =>
      by_contra hgt
      have := h.2 (show ExceedsAt capacity pieces k from ⟨by omega, by omega⟩)
      omega
  rw [length_take_succ hi] at hlt
  exact (refusedAt_iff k).mpr ⟨_, hi, by rwa [fitting_of_length_le hle]⟩

theorem isLeast_refusedAt_iff (k : Nat) :
    IsLeast {i | (holding capacity true []).RefusedAt pieces i} k ↔
      IsLeast {i | ExceedsAt capacity pieces i} k := by
  constructor
  · intro h
    have hne : {i | ExceedsAt capacity pieces i}.Nonempty := ⟨k, exceedsAt_of_refusedAt h.1⟩
    have hm := isLeast_csInf hne
    have hkm : k ≤ _ := h.2 (refusedAt_of_isLeast hm)
    have hmk := hm.2 (exceedsAt_of_refusedAt h.1)
    rwa [le_antisymm hkm hmk]
  · intro h
    exact ⟨refusedAt_of_isLeast h, fun i hi => h.2 (exceedsAt_of_refusedAt hi)⟩

theorem forall_not_refusedAt_iff :
    (∀ i, ¬ (holding capacity true []).RefusedAt pieces i) ↔
      (pieces.flatMap Source.elementCommands).length ≤ capacity := by
  constructor
  · intro h
    by_contra hgt
    have hpos : 0 < pieces.length := by
      cases pieces with
      | nil => simp at hgt
      | cons piece pieces => simp
    have hne : {i | ExceedsAt capacity pieces i}.Nonempty := by
      refine ⟨pieces.length - 1, by omega, ?_⟩
      rw [List.take_of_length_le (by omega)]
      omega
    exact h _ (refusedAt_of_isLeast (isLeast_csInf hne))
  · intro h i hi
    obtain ⟨-, hlt⟩ := exceedsAt_of_refusedAt hi
    have hp : pieces.take (i + 1) <+: pieces := List.take_prefix _ _
    have := (hp.flatMap Source.elementCommands).length_le
    omega

/-! ### Both kinds of collector -/

structure Bounded (c : Collector) (capacity : Nat) : Prop where
  capacity_eq : c.capacity = capacity
  size_le : c.size ≤ capacity
  isFull_iff : c.isFull = true ↔ c.size = capacity
  isFull_of_truncated : c.truncated = true → c.isFull = true
  capacity_program : c.program.capacity = capacity
  length_program : c.program.length = c.size

/-- Offered pieces, the collector keeps the first commands of the whole. -/
structure KeepsFirst (c : Collector) (capacity : Nat) (pieces : List Source) : Prop where
  commands_eq : (c.offerAll pieces).program.commands =
    (pieces.flatMap Source.elementCommands).take capacity
  truncated_iff : (c.offerAll pieces).program.truncated = true ↔
    capacity < (pieces.flatMap Source.elementCommands).length
  answer_eq : ∀ piece, ((c.offerAll pieces).feed piece).1 =
    .ok (decide ((c.offerAll (pieces ++ [piece])).size < capacity))
  program_concat : (Source.concat pieces).program capacity false = .ok (c.offerAll pieces).program

/-- Offered pieces, the collector refuses those that find no room and keeps the others. -/
structure KeepsFitting (c : Collector) (capacity : Nat) (pieces : List Source) : Prop where
  isLeast_refusedAt_iff : ∀ k, IsLeast {i | c.RefusedAt pieces i} k ↔
    IsLeast {i | ExceedsAt capacity pieces i} k
  forall_not_refusedAt_iff : (∀ i, ¬ c.RefusedAt pieces i) ↔
    (pieces.flatMap Source.elementCommands).length ≤ capacity
  feed_error : ∀ piece e, ((c.offerAll pieces).feed piece).1 = .error e →
    e = .rejected (.tooLong capacity) ∧ c.offerAll (pieces ++ [piece]) = c.offerAll pieces
  answer_eq : ∀ piece, ((c.offerAll pieces).feed piece).1 =
    if capacity < (c.offerAll pieces).size + piece.elementCommands.length then
      .error (.rejected (.tooLong capacity))
    else .ok (decide ((c.offerAll (pieces ++ [piece])).size < capacity))
  commands_eq : (c.offerAll pieces).program.commands =
    (fitting capacity pieces).flatMap Source.elementCommands
  truncated_eq : (c.offerAll pieces).program.truncated = false

theorem bounded_holding (capacity : Nat) (strict : Bool) (cs : List Command) :
    (holding capacity strict cs).Bounded capacity where
  capacity_eq := rfl
  size_le := by simp
  isFull_iff := by simp
  isFull_of_truncated h := by
    simp only [holding, decide_eq_true_eq] at h
    simp [h.le]
  capacity_program := rfl
  length_program := by simp [program_holding, Program.length]

theorem keepsFirst_holding (h₀ : 0 < capacity) (pieces : List Source) :
    (holding capacity false []).KeepsFirst capacity pieces where
  commands_eq := by rw [offerAll_lenient, program_holding, List.nil_append]
  truncated_iff := by
    rw [offerAll_lenient, program_holding, List.nil_append]
    exact decide_eq_true_iff
  answer_eq piece := by
    have hf := feed_holding_lenient capacity (pieces.flatMap Source.elementCommands) piece
    rw [offerAll_concat, offerAll_lenient, List.nil_append, hf, accepted_eq]
    rfl
  program_concat := by
    rw [Source.program_lenient h₀, Source.commands_concat, offerAll_lenient, program_holding,
      List.nil_append]

theorem keepsFitting_holding (capacity : Nat) (pieces : List Source) :
    (holding capacity true []).KeepsFitting capacity pieces := by
  have hall := offerAll_strict_nil capacity pieces
  have hle := length_fitting_le capacity pieces
  have hsize : ((holding capacity true []).offerAll pieces).size =
      ((fitting capacity pieces).flatMap Source.elementCommands).length := by
    rw [hall, size_holding, Nat.min_eq_right hle]
  refine ⟨isLeast_refusedAt_iff, forall_not_refusedAt_iff, fun piece e he => ?_, fun piece => ?_,
    ?_, ?_⟩
  · have hf := feed_offerAll_strict capacity pieces piece
    split_ifs at hf
    · rw [hf] at he
      exact ⟨(Except.error.inj he).symm, by rw [offerAll_concat, hf]⟩
    · rw [hf] at he
      cases he
  · have hf := feed_offerAll_strict capacity pieces piece
    rw [hsize]
    split_ifs at hf ⊢
    · rw [hf]
    · rw [hf, accepted_eq, offerAll_strict_nil]
      rfl
  · rw [hall, program_holding, List.take_of_length_le hle]
  · rw [hall, program_holding]
    exact decide_eq_false (Nat.not_lt.mpr hle)

/-- What a collector makes of pieces does not depend on how the whole is cut: one that is not
strict keeps the first commands of the whole, and a strict one first refuses the piece that makes
the whole too long, and keeps each piece that has room. Neither ever holds more than it may. -/
theorem offerAll_of_new (capacity : Nat) (h₀ : 0 < capacity) :
    ∃ lenient strict, new capacity false = .ok lenient ∧ new capacity true = .ok strict ∧
      ∀ pieces, lenient.KeepsFirst capacity pieces ∧ strict.KeepsFitting capacity pieces ∧
        (lenient.offerAll pieces).Bounded capacity ∧ (strict.offerAll pieces).Bounded capacity := by
  refine ⟨_, _, new_eq_holding h₀ false, new_eq_holding h₀ true, fun pieces => ?_⟩
  refine ⟨keepsFirst_holding h₀ pieces, keepsFitting_holding capacity pieces, ?_, ?_⟩
  · rw [offerAll_lenient]
    exact bounded_holding capacity false _
  · rw [offerAll_strict_nil]
    exact bounded_holding capacity true _

/-- Of three pieces the second is too long for a strict collector, and the third is not. -/
theorem offerAll_of_new_refused_between :
    ∃ lenient strict, new 2 false = .ok lenient ∧ new 2 true = .ok strict ∧
      (lenient.offerAll [.text (Text.ofString "+é"), .bytes [0x2D, 0x2E],
        .bytes [0x2C]]).program.commands = [.increment, .decrement] ∧
      (strict.offerAll [.text (Text.ofString "+é"), .bytes [0x2D, 0x2E],
        .bytes [0x2C]]).program.commands = [.increment, .input] := by
  obtain ⟨lenient, strict, hl, hs, h⟩ := offerAll_of_new 2 (by decide)
  obtain ⟨hfirst, hfitting, -⟩ := h
    [.text (Text.ofString "+é"), .bytes [0x2D, 0x2E], .bytes [0x2C]]
  exact ⟨lenient, strict, hl, hs, hfirst.commands_eq, hfitting.commands_eq⟩

end Collector

end Brainfuck
