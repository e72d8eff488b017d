import Brainfuck.Collector.Stream
import Brainfuck.Proofs.Collector.Pieces

/-! Collecting from a stream in memory. Read chunk by chunk, a stream gives up its elements until
enough commands are among them, and the program is that of the part read. A collector that is not
strict has enough when it is full, so it may leave commands unread that it would have dropped; a
strict one has enough only when there is one command too many. -/

namespace Brainfuck

namespace Source

variable {s : Source} {z limit n : Nat}

theorem elementCommands_take_append_drop (s : Source) (n : Nat) :
    (s.take n).elementCommands ++ (s.drop n).elementCommands = s.elementCommands := by
  cases s with
  | bytes bs => simp only [take, drop, elementCommands, ← List.filterMap_append,
      List.take_append_drop]
  | text t => simp only [take, drop, elementCommands, ← List.filterMap_append,
      List.take_append_drop]

theorem take_take (s : Source) (m n : Nat) : (s.take (m + n)).take m = s.take m := by
  cases s <;> simp [take, List.take_take]

theorem drop_take (s : Source) (m n : Nat) : (s.take (m + n)).drop m = (s.drop m).take n := by
  cases s <;> simp [take, drop, List.drop_take]

theorem drop_drop (s : Source) (m n : Nat) : (s.drop m).drop n = s.drop (m + n) := by
  cases s <;> simp [drop]

theorem take_min (s : Source) (n : Nat) : s.take (min s.length n) = s.take n := by
  cases s <;> simp [take, length, List.take_eq_take_iff, Nat.min_comm]

theorem drop_min (s : Source) (n : Nat) : s.drop (min s.length n) = s.drop n := by
  cases s <;> simp [drop, length, List.drop_eq_drop_iff, Nat.min_comm]

theorem take_min_add (s : Source) (m n : Nat) :
    s.take (min s.length m + n) = s.take (m + n) := by
  rw [← take_min s (m + n), ← take_min s (min s.length m + n)]
  congr 1
  omega

theorem drop_min_add (s : Source) (m n : Nat) :
    s.drop (min s.length m + n) = s.drop (m + n) := by
  rw [← drop_drop, drop_min, drop_drop]

theorem elementCommands_take_zero (s : Source) : (s.take 0).elementCommands = [] := by
  cases s <;> rfl

theorem take_of_length_le (h : s.length ≤ n) : s.take n = s := by
  cases s with
  | bytes bs => exact congrArg bytes (List.take_of_length_le h)
  | text t => exact congrArg text (List.take_of_length_le h)

theorem elementCommands_take_add (s : Source) (m n : Nat) :
    (s.take (m + n)).elementCommands =
      (s.take m).elementCommands ++ ((s.drop m).take n).elementCommands := by
  rw [← elementCommands_take_append_drop (s.take (m + n)) m, take_take, drop_take]

theorem length_elementCommands_take_le (s : Source) (n : Nat) :
    (s.take n).elementCommands.length ≤ s.elementCommands.length := by
  rw [← elementCommands_take_append_drop s n, List.length_append]
  exact Nat.le_add_right _ _

/-- Read in chunks of `z` elements, `n` elements are taken until `limit` commands are among
them. -/
structure ReadsUntil (s : Source) (z limit n : Nat) : Prop where
  of_isLeast : ∀ k, IsLeast {k | limit ≤ (s.take (k * z)).elementCommands.length} k →
    n = min s.length (k * z)
  of_forall_lt : (∀ k, (s.take (k * z)).elementCommands.length < limit) → n = s.length

theorem ReadsUntil.cases (h : s.ReadsUntil z limit n) :
    (∃ k, IsLeast {k | limit ≤ (s.take (k * z)).elementCommands.length} k ∧
        n = min s.length (k * z)) ∨
      (∀ k, (s.take (k * z)).elementCommands.length < limit) ∧ n = s.length := by
  rcases Set.eq_empty_or_nonempty {k | limit ≤ (s.take (k * z)).elementCommands.length}
    with hempty | hne
  · have hlt : ∀ k, (s.take (k * z)).elementCommands.length < limit := fun k =>
      Nat.not_le.mp fun hk => Set.eq_empty_iff_forall_notMem.mp hempty k hk
    exact .inr ⟨hlt, h.of_forall_lt hlt⟩
  · have hleast := isLeast_csInf hne
    exact .inl ⟨_, hleast, h.of_isLeast _ hleast⟩

/-- What is read holds all the commands that are wanted, or all there are. -/
theorem ReadsUntil.take_elementCommands (h : s.ReadsUntil z limit n) :
    (s.take n).elementCommands.take limit = s.elementCommands.take limit := by
  obtain ⟨k, hleast, rfl⟩ | ⟨-, rfl⟩ := h.cases
  · have hk : limit ≤ (s.take (k * z)).elementCommands.length := hleast.1
    rw [take_min, ← elementCommands_take_append_drop s (k * z), List.take_append_of_le_length hk]
  · rw [take_of_length_le le_rfl]

theorem readsUntil_zero (s : Source) (z : Nat) : s.ReadsUntil z 0 0 := by
  refine ⟨fun k hk => ?_, fun hlt => absurd (hlt 0) (Nat.not_lt_zero _)⟩
  obtain rfl : k = 0 := Nat.eq_zero_of_le_zero (hk.2 (Nat.zero_le _))
  rw [Nat.zero_mul, Nat.min_zero]

theorem readsUntil_empty (h : s.length = 0) : s.ReadsUntil z limit 0 :=
  ⟨by simp [h], by simp [h]⟩

theorem readsUntil_first (h₀ : 0 < limit) (h : limit ≤ (s.take z).elementCommands.length) :
    s.ReadsUntil z limit (min s.length z) := by
  refine ⟨fun k hk => ?_, fun hlt => ?_⟩
  · have h₁ : k ≤ 1 := hk.2 (show limit ≤ _ by rwa [Nat.one_mul])
    have hne : k ≠ 0 := by
      rintro rfl
      have hm : limit ≤ (s.take (0 * z)).elementCommands.length := hk.1
      rw [Nat.zero_mul, elementCommands_take_zero] at hm
      exact Nat.not_le.mpr h₀ hm
    rw [show k = 1 by omega, Nat.one_mul]
  · have := hlt 1
    rw [Nat.one_mul] at this
    omega

/-- The first chunk is not enough, and the rest is read for what is wanting. -/
theorem ReadsUntil.later (h : (s.take z).elementCommands.length < limit)
    (hn : (s.drop z).ReadsUntil z (limit - (s.take z).elementCommands.length) n) :
    s.ReadsUntil z limit (min s.length z + n) := by
  have hcount : ∀ k, (s.take ((k + 1) * z)).elementCommands.length =
      (s.take z).elementCommands.length + ((s.drop z).take (k * z)).elementCommands.length := by
    intro k
    rw [show (k + 1) * z = z + k * z by rw [Nat.succ_mul, Nat.add_comm], elementCommands_take_add,
      List.length_append]
  have hlength := length_drop z s
  refine ⟨fun k hk => ?_, fun hlt => ?_⟩
  · obtain _ | k := k
    · have hm : limit ≤ (s.take (0 * z)).elementCommands.length := hk.1
      rw [Nat.zero_mul, elementCommands_take_zero, List.length_nil] at hm
      omega
    · have hleast : IsLeast {k | limit - (s.take z).elementCommands.length ≤
          ((s.drop z).take (k * z)).elementCommands.length} k := by
        constructor
        · have hm : limit ≤ (s.take ((k + 1) * z)).elementCommands.length := hk.1
          rw [hcount] at hm
          rw [Set.mem_ofPred_eq]
          omega
        · intro j hj
          have hj' : limit - (s.take z).elementCommands.length ≤
            ((s.drop z).take (j * z)).elementCommands.length := hj
          have := hk.2 (show limit ≤ (s.take ((j + 1) * z)).elementCommands.length by
            rw [hcount]; omega)
          omega
      rw [hn.of_isLeast k hleast, hlength, Nat.succ_mul]
      omega
  · rw [hn.of_forall_lt fun k => ?_, hlength]
    · omega
    · have := hlt (k + 1)
      rw [hcount] at this
      omega

end Source

namespace Collector

variable {capacity z : Nat} {strict : Bool} {cs : List Command}

/-- The number of commands at which a collector reads no further. -/
def enough (capacity : Nat) (strict : Bool) : Nat := if strict then capacity + 1 else capacity

theorem isEmpty_take (hz : 0 < z) (s : Source) : (s.take z).isEmpty = decide (s.length = 0) := by
  rw [Source.isEmpty, Source.length_take, beq_eq_decide]
  exact decide_eq_decide.mpr (by omega)

theorem read_memory (hw : Offset.isWide z = false) (s : Source) :
    (Input.memory s).read z = (.data (s.take z), .memory (s.drop z)) := by
  simp [Input.read, hw]

/-! ### One chunk -/

theorem drain_memory_end (hz : 0 < z) (hw : Offset.isWide z = false) {s : Source}
    (hs : s.length = 0) (c : Collector) :
    c.drain z (.memory s) = (.ok c, .memory (s.drop z)) := by
  rw [drain_eq, read_memory hw]
  simp [intake, isEmpty_take hz, hs, Except.map]

theorem drain_memory_chunk (hz : 0 < z) (hw : Offset.isWide z = false) {s : Source}
    (hs : s.length ≠ 0) (c : Collector) :
    c.drain z (.memory s) =
      match c.feed (s.take z) with
      | (.error e, _) => (.error e, .memory (s.drop z))
      | (.ok more, d) => if more || d.strict then d.drain z (.memory (s.drop z))
        else (.ok d, .memory (s.drop z)) := by
  have hempty : (s.take z).isEmpty = false := by simp [isEmpty_take hz, hs]
  rw [drain_eq, read_memory hw]
  simp only [intake, hempty, Bool.false_eq_true, if_false]
  rcases c.feed (s.take z) with ⟨e | more, d⟩
  · rfl
  · by_cases hmore : (more || d.strict) = true
    · simp only [hmore, if_true]
    · simp only [hmore]
      rfl

theorem drain_memory_enough (hz : 0 < z) (hw : Offset.isWide z = false)
    (hcs : cs.length < enough capacity strict) {s : Source} (hs : s.length ≠ 0)
    (h : enough capacity strict ≤ cs.length + (s.take z).commands.length) :
    (holding capacity strict cs).drain z (.memory s) =
      ((holding capacity strict cs).fed (s.take z), .memory (s.drop z)) := by
  rw [drain_memory_chunk hz hw hs]
  cases strict with
  | true =>
    rw [enough, if_pos rfl] at hcs h
    have hfeed : (holding capacity true cs).feed (s.take z) = _ :=
      feed_holding_strict (by omega) (by omega)
    rw [fed_of_refused hfeed, hfeed]
  | false =>
    rw [enough, if_neg Bool.false_ne_true] at h
    have hfull : (holding capacity false (cs ++ (s.take z).commands)).isFull = true := by
      rw [isFull_holding, List.length_append]
      exact decide_eq_true h
    have hfeed := feed_holding_lenient capacity cs (s.take z)
    rw [fed_of_accepted hfeed, hfeed, accepted, hfull]
    rfl

theorem drain_memory_more (hz : 0 < z) (hw : Offset.isWide z = false) {s : Source}
    (hs : s.length ≠ 0)
    (h : cs.length + (s.take z).commands.length < enough capacity strict) :
    (holding capacity strict cs).drain z (.memory s) =
      (holding capacity strict (cs ++ (s.take z).commands)).drain z (.memory (s.drop z)) := by
  rw [drain_memory_chunk hz hw hs]
  cases strict with
  | true =>
    rw [enough, if_pos rfl] at h
    rw [feed_holding_of_le true (by omega), accepted]
    simp [holding]
  | false =>
    rw [enough, if_neg Bool.false_ne_true] at h
    have hfull : (holding capacity false (cs ++ (s.take z).commands)).isFull = false := by
      rw [isFull_holding, List.length_append]
      exact decide_eq_false (by omega)
    rw [feed_holding_lenient, accepted, hfull]
    rfl

/-! ### The whole stream -/

/-- Draining a stream in memory is feeding at once what is read of it. -/
theorem drain_memory (hz : 0 < z) (hw : Offset.isWide z = false)
    (hcs : cs.length < enough capacity strict) (s : Source) :
    ∃ n, s.ReadsUntil z (enough capacity strict - cs.length) n ∧
      (holding capacity strict cs).drain z (.memory s) =
        ((holding capacity strict cs).fed (s.take n), .memory (s.drop n)) := by
  have hcapacity : enough capacity strict ≤ capacity + 1 := by
    cases strict <;> simp [enough]
  -- on the elements left: each chunk that is not enough leaves fewer of them
  generalize hlen : s.length = length
  induction length using Nat.strong_induction_on generalizing s cs with
  | _ length ih =>
    have hpiece := (s.take z).commands_eq_elementCommands
    rcases Nat.eq_zero_or_pos s.length with h₀ | hpos
    · refine ⟨0, Source.readsUntil_empty h₀, ?_⟩
      have hnil : (s.take 0).commands = [] := by
        rw [Source.commands_eq_elementCommands, Source.elementCommands_take_zero]
      have hdrop : s.drop z = s.drop 0 := by
        rw [← Source.drop_min s z, h₀, Nat.zero_min]
      have hfeed := feed_holding_of_le strict (show cs.length + (s.take 0).commands.length ≤
        capacity by rw [hnil, List.length_nil]; omega)
      rw [drain_memory_end hz hw h₀, fed_of_accepted hfeed, hnil, List.append_nil, hdrop]
    · rcases Nat.lt_or_ge (cs.length + (s.take z).commands.length) (enough capacity strict)
        with hlt | hge
      · have hcs' : (cs ++ (s.take z).commands).length < enough capacity strict := by
          rwa [List.length_append]
        obtain ⟨n, hn, hdrain⟩ := ih (s.drop z).length (by rw [Source.length_drop]; omega) hcs'
          (s.drop z) rfl
        have hwhole : (s.take (z + n)).commands =
            (s.take z).commands ++ ((s.drop z).take n).commands := by
          simp only [Source.commands_eq_elementCommands, Source.elementCommands_take_add]
        refine ⟨min s.length z + n, .later (by rw [← hpiece]; omega) ?_, ?_⟩
        · rwa [← hpiece, Nat.sub_sub, ← List.length_append]
        · rw [drain_memory_more hz hw (by omega) hlt, hdrain, Source.take_min_add,
            Source.drop_min_add, Source.drop_drop, fed_holding_append hwhole fun _ => by omega]
      · refine ⟨min s.length z, Source.readsUntil_first (by omega) (by rw [← hpiece]; omega), ?_⟩
        rw [drain_memory_enough hz hw hcs (by omega) hge, Source.take_min, Source.drop_min]

end Collector

namespace Input

variable {capacity z : Nat}

theorem program_memory (h₀ : 0 < capacity) (hz : 0 < z) (hw : Offset.isWide z = false)
    (strict : Bool) (s : Source) :
    ∃ n, s.ReadsUntil z (Collector.enough capacity strict) n ∧
      (Input.memory s).program capacity strict z =
        ((s.take n).program capacity strict, .memory (s.drop n)) := by
  have henough : ([] : List Command).length < Collector.enough capacity strict := by
    cases strict <;> simp [Collector.enough, h₀]
  obtain ⟨n, hn, hdrain⟩ := Collector.drain_memory hz hw henough s
  refine ⟨n, hn, ?_⟩
  rw [program, if_neg (by omega), Collector.new_eq_holding h₀, Source.program_eq_map_fed h₀]
  simp only [Int.toNat_natCast, hdrain]

theorem program_of_not_pos {capacity : Int} (h : ¬ 0 < capacity) (i : Input) (strict : Bool)
    (chunk : Int) (program : Program) (rest : Input) :
    i.program capacity strict chunk ≠ (.ok program, rest) := by
  rw [Input.program, Collector.new, if_neg h]
  split_ifs <;> simp

/-- A request that is too large fails and reads nothing. -/
theorem program_memory_oversize (h₀ : 0 < capacity) (hz : 0 < z) (hw : Offset.isWide z = true)
    (strict : Bool) (s : Source) :
    (Input.memory s).program capacity strict z = (.error (.stream oversize), .memory s) := by
  have hread : (Input.memory s).read z = (.fault oversize, .memory s) := by
    simp [read, hw]
  rw [program, if_neg (by omega), Collector.new_eq_holding h₀]
  simp only [Int.toNat_natCast]
  rw [Collector.drain_eq, hread]
  rfl

/-- Without strictness a stream gives the commands that its source gives at once; those that it
leaves unread are not seen to be too many. -/
theorem program_memory_lenient (h₀ : 0 < capacity) (hz : 0 < z) (hw : Offset.isWide z = false)
    (s : Source) :
    ∃ n, s.ReadsUntil z capacity n ∧
      (Input.memory s).program capacity false z =
        (.ok ⟨s.commands.take capacity, capacity < (s.take n).elementCommands.length, capacity⟩,
          .memory (s.drop n)) := by
  obtain ⟨n, hn, h⟩ := program_memory h₀ hz hw false s
  have hn : s.ReadsUntil z capacity n := hn
  refine ⟨n, hn, ?_⟩
  rw [h, Source.program_lenient h₀, Source.commands_eq_elementCommands,
    Source.commands_eq_elementCommands, hn.take_elementCommands]

theorem program_memory_strict_of_le (h₀ : 0 < capacity) (hz : 0 < z)
    (hw : Offset.isWide z = false) {s : Source} (h : s.elementCommands.length ≤ capacity) :
    (Input.memory s).program capacity true z =
      (s.program capacity true, .memory (s.drop s.length)) := by
  obtain ⟨n, hn, hprogram⟩ := program_memory h₀ hz hw true s
  have hlt : ∀ k, (s.take (k * z)).elementCommands.length < Collector.enough capacity true :=
    fun k => by
      have := s.length_elementCommands_take_le (k * z)
      rw [Collector.enough, if_pos rfl]
      omega
  rw [hprogram, hn.of_forall_lt hlt, Source.take_of_length_le le_rfl]

/-- A strict collector reads no further than the chunk that is too much. -/
theorem program_memory_strict_of_lt (h₀ : 0 < capacity) (hz : 0 < z)
    (hw : Offset.isWide z = false) {s : Source} (h : capacity < s.elementCommands.length) :
    ∃ k, IsLeast {k | capacity < (s.take (k * z)).elementCommands.length} k ∧
      (Input.memory s).program capacity true z =
        (.error (.rejected (.tooLong capacity)), .memory (s.drop (min s.length (k * z)))) := by
  obtain ⟨n, hn, hprogram⟩ := program_memory h₀ hz hw true s
  obtain ⟨k, hleast, rfl⟩ | ⟨hlt, -⟩ := hn.cases
  · have hk : capacity < (s.take (k * z)).elementCommands.length := hleast.1
    refine ⟨k, hleast, ?_⟩
    rw [hprogram, Source.take_min, Source.program_strict_of_lt h₀ hk]
  · have hall := hlt s.length
    rw [Source.take_of_length_le (Nat.le_mul_of_pos_right _ hz), Collector.enough, if_pos rfl]
      at hall
    omega

/-- How a source is cut changes neither the commands it gives nor why it is refused. -/
theorem map_commands_program_memory (h₀ : 0 < capacity) (hz : 0 < z)
    (hw : Offset.isWide z = false) (strict : Bool) (s : Source) :
    ((Input.memory s).program capacity strict z).1.map Program.commands =
      (s.program capacity strict).map Program.commands := by
  cases strict with
  | false =>
    obtain ⟨n, -, h⟩ := program_memory_lenient h₀ hz hw s
    rw [h, Source.program_lenient h₀]
    rfl
  | true =>
    rcases Nat.lt_or_ge capacity s.elementCommands.length with hlt | hle
    · obtain ⟨k, -, h⟩ := program_memory_strict_of_lt h₀ hz hw hlt
      rw [h, Source.program_strict_of_lt h₀ hlt]
    · rw [program_memory_strict_of_le h₀ hz hw hle]

/-- A stream read in chunks gives the commands that its source gives at once, and reads only as
far as it must. -/
theorem program_memory_eq (capacity z : Nat) (h₀ : 0 < capacity) (hz : 0 < z) (s : Source) :
    (z < Offset.limit →
      (∃ n whole, s.ReadsUntil z capacity n ∧ s.program capacity false = .ok whole ∧
        (Input.memory s).program capacity false z =
          (.ok ⟨whole.commands, capacity < (s.take n).elementCommands.length, capacity⟩,
            .memory (s.drop n)) ∧
        (capacity < (s.take n).elementCommands.length → whole.truncated = true)) ∧
      (s.elementCommands.length ≤ capacity → ∃ whole, s.program capacity true = .ok whole ∧
        (Input.memory s).program capacity true z = (.ok whole, .memory (s.drop s.length))) ∧
      (capacity < s.elementCommands.length →
        ∃ k, IsLeast {k | capacity < (s.take (k * z)).elementCommands.length} k ∧
          (Input.memory s).program capacity true z =
            (.error (.rejected (.tooLong capacity)), .memory (s.drop (min s.length (k * z)))))) ∧
    (Offset.limit ≤ z → ∀ strict,
      (Input.memory s).program capacity strict z = (.error (.stream oversize), .memory s)) := by
  constructor
  · intro hlimit
    have hw : Offset.isWide z = false := by
      have hpos : 0 < Offset.limit := by decide
      simp only [Offset.isWide, Bool.or_eq_false_iff, decide_eq_false_iff_not]
      omega
    obtain ⟨n, hn, hlenient⟩ := program_memory_lenient h₀ hz hw s
    refine ⟨⟨n, _, hn, Source.program_lenient h₀ s, hlenient, fun hlt => ?_⟩, fun hle => ?_,
      program_memory_strict_of_lt h₀ hz hw⟩
    · have := s.length_elementCommands_take_le n
      rw [Source.commands_eq_elementCommands]
      exact decide_eq_true (by omega)
    · have hcommands : s.commands.length ≤ capacity := by
        rwa [Source.commands_eq_elementCommands]
      have hwhole := Source.program_eq_ok (Int.natCast_pos.mpr h₀) (Int.ofNat_le.mpr hcommands) true
      exact ⟨_, hwhole, by rw [program_memory_strict_of_le h₀ hz hw hle, hwhole]⟩
  · intro hlimit strict
    exact program_memory_oversize h₀ hz (by simp [Offset.isWide, hlimit]) strict s

/-- The first chunk fills the collector, and the surplus stays unread. -/
theorem program_memory_eq_surplus_unread :
    (Source.bytes [0x2B, 0x78, 0x2D, 0x2E]).program (2 : Nat) false =
        .ok ⟨[.increment, .decrement], true, 2⟩ ∧
      (Input.memory (.bytes [0x2B, 0x78, 0x2D, 0x2E])).program (2 : Nat) false (3 : Nat) =
        (.ok ⟨[.increment, .decrement], false, 2⟩, .memory (.bytes [0x2E])) := by
  obtain ⟨⟨n, whole, hn, hwhole, hstream, -⟩, -⟩ :=
    (program_memory_eq 2 3 (by decide) (by decide) (.bytes [0x2B, 0x78, 0x2D, 0x2E])).1 (by decide)
  have hleast : IsLeast {k | 2 ≤ ((Source.bytes [0x2B, 0x78, 0x2D, 0x2E]).take
      (k * 3)).elementCommands.length} 1 := by
    refine ⟨by decide, fun k hk => Nat.pos_of_ne_zero ?_⟩
    rintro rfl
    revert hk
    decide
  obtain rfl : n = 3 := hn.of_isLeast 1 hleast
  have hone : (Source.bytes [0x2B, 0x78, 0x2D, 0x2E]).program (2 : Nat) false =
      .ok ⟨[.increment, .decrement], true, 2⟩ := by decide
  obtain rfl := Except.ok.inj (hwhole.symm.trans hone)
  exact ⟨hone, hstream⟩

/-- A request beyond all offsets gives no program, where the source at once gives one. -/
theorem program_memory_of_wide_request :
    (Source.bytes [0x2B]).program 1 false = .ok ⟨[.increment], false, 1⟩ ∧
      (Input.memory (.bytes [0x2B])).program 1 false 0x8000000000000000 =
        (.error (.stream oversize), .memory (.bytes [0x2B])) ∧
      ¬ ∃ program rest, (Input.memory (.bytes [0x2B])).program 1 false 0x8000000000000000 =
        (.ok program, rest) := by
  have hwide : (Input.memory (.bytes [0x2B])).program 1 false 0x8000000000000000 =
      (.error (.stream oversize), .memory (.bytes [0x2B])) :=
    program_memory_oversize Nat.one_pos (by decide) (by decide) false _
  refine ⟨by decide, hwide, ?_⟩
  rintro ⟨program, rest, h⟩
  rw [hwide] at h
  simp at h

end Input

end Brainfuck
