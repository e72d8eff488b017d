import Brainfuck.Collector
import Brainfuck.Proofs.Bracket.Height

/-! Comments dropped. The bytes of a code point beyond ASCII are beyond ASCII too, so a source
keeps the same commands whether they are looked for among its bytes or among its code points. The
rank of a position is the number of commands before it; it takes the commands of a text to the
positions of the text without comments. -/

namespace Brainfuck

theorem Command.ofNat?_eq_none {n : Nat} (h : 0x80 ≤ n) : ofNat? n = none := by
  unfold ofNat?
  split
  case h_9 => rfl
  all_goals omega

namespace CodePoint

/-- The bytes of a code point beyond ASCII are beyond ASCII. -/
theorem le_toNat_of_mem_utf8 {x : CodePoint} (hx : 0x80 ≤ x.value) {b : UInt8}
    (hb : b ∈ x.utf8) : 0x80 ≤ b.toNat := by
  have hlt := x.value_lt
  have htrail : ∀ unit, 0x80 ≤ (UInt8.ofNat (0x80 + x.value / unit % 0x40)).toNat := by
    intro unit
    rw [UInt8.toNat_ofNat']
    omega
  simp only [utf8] at hb
  split_ifs at hb with h₁ h₂ h₃
  · omega
  · simp only [List.mem_cons, List.not_mem_nil, or_false] at hb
    rcases hb with rfl | rfl
    · rw [UInt8.toNat_ofNat']
      omega
    · exact htrail 1
  · simp only [List.mem_cons, List.not_mem_nil, or_false] at hb
    rcases hb with rfl | rfl | rfl
    · rw [UInt8.toNat_ofNat']
      omega
    · exact htrail 0x40
    · exact htrail 1
  · simp only [List.mem_cons, List.not_mem_nil, or_false] at hb
    rcases hb with rfl | rfl | rfl | rfl
    · rw [UInt8.toNat_ofNat']
      omega
    · exact htrail 0x1000
    · exact htrail 0x40
    · exact htrail 1

theorem filterMap_utf8 (x : CodePoint) :
    x.utf8.filterMap Command.ofByte? = (Command.ofCodePoint? x).toList := by
  by_cases hx : x.value < 0x80
  · have hb : Command.ofByte? (UInt8.ofNat x.value) = Command.ofCodePoint? x := by
      rw [Command.ofByte?, UInt8.toNat_ofNat', Nat.mod_eq_of_lt (by omega)]
      rfl
    simp only [utf8, hx, if_true, List.filterMap_cons, List.filterMap_nil, hb]
    cases Command.ofCodePoint? x <;> rfl
  · rw [Command.ofCodePoint?, Command.ofNat?_eq_none (by omega), Option.toList_none,
      List.filterMap_eq_nil_iff]
    intro b hb
    exact Command.ofNat?_eq_none (le_toNat_of_mem_utf8 (by omega) hb)

end CodePoint

namespace Text

def commands (t : Text) : List Command := t.filterMap Command.ofCodePoint?

/-- The number of commands before a position. -/
def rank (t : Text) (i : Nat) : Nat := (commands (t.take i)).length

end Text

theorem Source.commands_text (t : Text) : (Source.text t).commands = t.commands := by
  rw [commands, toBytes, Text.utf8, Text.commands, List.filterMap_flatMap]
  induction t with
  | nil => rfl
  | cons x t ih =>
    rw [List.flatMap_cons, List.filterMap_cons, ih, CodePoint.filterMap_utf8]
    cases Command.ofCodePoint? x <;> rfl

theorem Source.program_eq_ok {s : Source} {capacity : Int} (h₀ : 0 < capacity)
    (h : s.commands.length ≤ capacity) (strict : Bool) :
    s.program capacity strict = .ok ⟨s.commands, false, capacity.toNat⟩ := by
  have hl : s.commands.length ≤ capacity.toNat := by omega
  simp [program, Collector.new, Collector.feed, Collector.accepted, Collector.size,
    Collector.program, h₀, hl, bind, Except.bind, Except.map]

namespace Text

variable {t : Text} {i j : Nat} {x : CodePoint} {c : Command}

theorem rank_length (t : Text) : t.rank t.length = t.commands.length := by
  rw [rank, List.take_length]

theorem rank_succ_of_none (hx : t[i]? = some x) (hc : Command.ofCodePoint? x = none) :
    t.rank (i + 1) = t.rank i := by
  simp [rank, commands, List.take_add_one, hx, hc]

theorem rank_succ_of_some (hx : t[i]? = some x) (hc : Command.ofCodePoint? x = some c) :
    t.rank (i + 1) = t.rank i + 1 := by
  simp [rank, commands, List.take_add_one, hx, hc]

theorem rank_mono (h : i ≤ j) : t.rank i ≤ t.rank j := by
  have hp : t.take i <+: t.take j := List.take_prefix_take_left h
  exact (hp.filterMap _).length_le

/-- What comes after a command has a higher rank. -/
theorem rank_lt_rank (hx : t[i]? = some x) (hc : Command.ofCodePoint? x = some c) (h : i < j) :
    t.rank i < t.rank j := by
  have hm : t.rank (i + 1) ≤ t.rank j := rank_mono h
  rw [rank_succ_of_some hx hc] at hm
  omega

/-- The command at a position stands at its rank among all commands. -/
theorem getElem?_commands (hx : t[i]? = some x) (hc : Command.ofCodePoint? x = some c) :
    t.commands[t.rank i]? = some c := by
  have hd : t.drop i = x :: t.drop (i + 1) := by
    obtain ⟨hlt, rfl⟩ := List.getElem?_eq_some_iff.mp hx
    exact List.drop_eq_getElem_cons hlt
  have ht : t.commands = commands (t.take i) ++ c :: commands (t.drop (i + 1)) := by
    conv_lhs => rw [← List.take_append_drop i t, hd]
    simp [commands, hc]
  rw [ht, rank, List.getElem?_append_right le_rfl]
  simp

theorem getElem?_ofCommands (hx : t[i]? = some x) (hc : Command.ofCodePoint? x = some c) :
    (ofCommands t.commands)[t.rank i]? = some x := by
  rw [ofCommands, List.getElem?_map, getElem?_commands hx hc,
    Command.eq_codePoint_of_ofCodePoint? hc]
  rfl

end Text

end Brainfuck
