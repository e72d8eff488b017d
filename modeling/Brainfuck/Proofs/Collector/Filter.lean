import Brainfuck.Proofs.Collector.Pieces

/-! A source at once. The commands of a source are looked for among its bytes, and they are its
elements that are commands by themselves: code points of a text, or single bytes. As many of them
are kept as there is room for. A program is a source of its own commands and of nothing else, so
to collect it once more, with no less room, changes nothing. -/

namespace Brainfuck

namespace Command

theorem isText_singleton (x : CodePoint) : isText [x] = (ofCodePoint? x).isSome := rfl

theorem isCode_toNat (b : UInt8) : isCode b.toNat = (ofByte? b).isSome := by
  simp [isCode, ofByte?]

end Command

def CodePoint.ofByte (b : UInt8) : CodePoint := ⟨b.toNat, b.toNat_lt.trans (by decide)⟩

theorem Command.codePoint_of_ofByte? {b : UInt8} {c : Command} (h : ofByte? b = some c) :
    c.codePoint = CodePoint.ofByte b :=
  (eq_codePoint_of_ofCodePoint? (p := CodePoint.ofByte b) h).symm

namespace Text

theorem commands_ofCommands (cs : List Command) : (ofCommands cs).commands = cs := by
  induction cs with
  | nil => rfl
  | cons c cs ih =>
    unfold commands ofCommands at ih ⊢
    rw [List.map_cons, List.filterMap_cons, Command.ofCodePoint?_codePoint, ih]

theorem ofCommands_filterMap {α : Type} {f : α → Option Command} {p : α → Bool}
    {g : α → CodePoint} (hp : ∀ x, p x = (f x).isSome)
    (hg : ∀ x c, f x = some c → c.codePoint = g x) (xs : List α) :
    ofCommands (xs.filterMap f) = (xs.filter p).map g := by
  induction xs with
  | nil => rfl
  | cons x xs ih =>
    unfold ofCommands at ih ⊢
    rw [List.filterMap_cons, List.filter_cons, hp]
    cases hx : f x with
    | none => exact ih
    | some c =>
      rw [List.map_cons, ih, hg x c hx]
      rfl

end Text

namespace Source

/-- The elements of a source that are commands by themselves, a byte as the code point with its
number. -/
def codeElements : Source → Text
  | bytes bs => (bs.filter fun b => Command.isCode b.toNat).map CodePoint.ofByte
  | text t => t.filter fun x => Command.isText [x]

/-- The commands that are found in the bytes of a source are the elements that are commands. -/
theorem ofCommands_commands (s : Source) : Text.ofCommands s.commands = s.codeElements := by
  rw [commands_eq_elementCommands]
  cases s with
  | bytes bs =>
    exact Text.ofCommands_filterMap Command.isCode_toNat
      (fun _ _ => Command.codePoint_of_ofByte?) bs
  | text t =>
    have h := Text.ofCommands_filterMap (g := id) Command.isText_singleton
      (fun _ _ hx => (Command.eq_codePoint_of_ofCodePoint? hx).symm) t
    rwa [List.map_id] at h

theorem length_commands (s : Source) : s.commands.length = s.codeElements.length := by
  rw [← ofCommands_commands, Text.ofCommands, List.length_map]

variable {s : Source} {capacity : Nat}

theorem exists_program_lenient (h₀ : 0 < capacity) (s : Source) :
    ∃ p, s.program capacity false = .ok p ∧ p.text = s.codeElements.take capacity ∧
      (p.truncated = true ↔ capacity < s.codeElements.length) ∧ p.capacity = capacity := by
  refine ⟨_, program_lenient h₀ s, ?_, ?_, rfl⟩
  · rw [← s.ofCommands_commands, Program.text, Text.ofCommands, Text.ofCommands, List.map_take]
  · rw [← length_commands]
    exact decide_eq_true_iff

theorem program_strict_eq (h₀ : 0 < capacity) (s : Source) :
    s.program capacity true =
      if capacity < s.codeElements.length then .error (.rejected (.tooLong capacity))
      else s.program capacity false := by
  rw [← length_commands]
  split_ifs with h
  · rw [commands_eq_elementCommands] at h
    exact program_strict_of_lt h₀ h
  · have hle : (s.commands.length : Int) ≤ capacity := Int.ofNat_le.mpr (Nat.not_lt.mp h)
    have hpos : (0 : Int) < capacity := Int.natCast_pos.mpr h₀
    rw [program_eq_ok hpos hle, program_eq_ok hpos hle]

theorem program_lenient_of_ok (h₀ : 0 < capacity) {strict : Bool} {p : Program}
    (h : s.program capacity strict = .ok p) : s.program capacity false = .ok p := by
  cases strict with
  | false => exact h
  | true =>
    rw [program_strict_eq h₀] at h
    split_ifs at h
    exact h

/-- A program is collected again as it is, if there is room for it. -/
theorem program_text (h₀ : 0 < capacity) {p : Program} (h : p.length ≤ capacity)
    (strict : Bool) :
    (Source.text p.text).program capacity strict = .ok ⟨p.commands, false, capacity⟩ := by
  have hcommands : (Source.text p.text).commands = p.commands := by
    rw [commands_text, Program.text, Text.commands_ofCommands]
  have hle : ((Source.text p.text).commands.length : Int) ≤ capacity := by
    rw [hcommands]
    exact Int.ofNat_le.mpr h
  rw [program_eq_ok (Int.natCast_pos.mpr h₀) hle, hcommands, Int.toNat_natCast]

/-- With room for `capacity` commands, the program of a source is made of its elements. -/
structure Filters (s : Source) (capacity : Nat) : Prop where
  /-- Among the bytes of the source there are no commands but its elements, in their order. -/
  ofCommands_commands : Text.ofCommands s.commands = s.codeElements
  /-- A collector that is not strict keeps the first of them. -/
  program_lenient : ∃ p, s.program capacity false = .ok p ∧
    p.text = s.codeElements.take capacity ∧
    (p.truncated = true ↔ capacity < s.codeElements.length) ∧ p.capacity = capacity
  /-- A strict one refuses more than it has room for. -/
  program_strict : s.program capacity true =
    if capacity < s.codeElements.length then .error (.rejected (.tooLong capacity))
    else s.program capacity false
  /-- With no less room the program gives itself again. -/
  program_again : ∀ strict p, s.program capacity strict = .ok p → ∀ capacity' ≥ capacity,
    ∀ strict', ∃ q, (Source.text p.text).program capacity' strict' = .ok q ∧ q.text = p.text ∧
      q.truncated = false

/-- Collecting a source is filtering its elements, and filtering them once more changes nothing. -/
theorem program_filters (capacity : Nat) (h₀ : 0 < capacity) (s : Source) :
    s.Filters capacity where
  ofCommands_commands := s.ofCommands_commands
  program_lenient := exists_program_lenient h₀ s
  program_strict := program_strict_eq h₀ s
  program_again strict p hp capacity' hle strict' := by
    have hp' := program_lenient_of_ok h₀ hp
    rw [Source.program_lenient h₀] at hp'
    obtain rfl := Except.ok.inj hp'
    have hroom : (s.commands.take capacity).length ≤ capacity' :=
      (List.length_take_le _ _).trans hle
    exact ⟨_, program_text (by omega) hroom strict', rfl, rfl⟩

/-- Four commands among a letter of two bytes and a lone surrogate, with room for three. -/
theorem program_filters_surrogate :
    ∃ p, (Source.text (Text.ofString "+é[" ++ [⟨0xD83E, by decide⟩] ++
        Text.ofString "].")).program (3 : Nat) false = .ok p ∧
      p.text = Text.ofString "+[]" ∧
      (Source.text (Text.ofString "+é[" ++ [⟨0xD83E, by decide⟩] ++
        Text.ofString "].")).program (3 : Nat) true = .error (.rejected (.tooLong 3)) ∧
      ∃ q, (Source.text p.text).program (5 : Nat) true = .ok q ∧ q.text = p.text ∧
        q.truncated = false := by
  have h := program_filters 3 (by decide)
    (.text (Text.ofString "+é[" ++ [⟨0xD83E, by decide⟩] ++ Text.ofString "]."))
  obtain ⟨p, hp, htext, -⟩ := h.program_lenient
  refine ⟨p, hp, htext, h.program_strict, ?_⟩
  exact h.program_again false p hp 5 (by decide) true

end Source

end Brainfuck
