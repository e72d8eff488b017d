import Brainfuck.Proofs.Block.Semantics
import Brainfuck.Proofs.Machine.Instruction
import Brainfuck.Proofs.Machine.Run
import Brainfuck.Proofs.Stream.Sink

/-! The machine carries out the block of its program. From the position where a block stands the
machine comes to the position after it in as many steps as the block runs for, with the store that
the block leaves; and if it ends at all, the block has a run. -/

namespace Brainfuck

namespace Store

variable {size : Nat}

/-- The store of a machine whose pointer is in range, before it reads `bytes`. -/
def ofState (s : State) (h : s.InRange) (bytes : List UInt8) : Store s.tape.size where
  tape := ⟨s.tape, rfl⟩
  pointer := ⟨s.pointer.toNat, by have := h.pointer_nonneg; have := h.pointer_lt; omega⟩
  unread := bytes
  output := []
  bytesRead := 0
  bytesWritten := 0
  emptyReads := 0

/-- The machine that holds a store, at a position and a number of steps after it was in the state
`origin` and wrote to `sink`. -/
def config (s : Store size) (origin : State) (sink : Sink) (position steps : Nat) : Config where
  state := {
    tape := s.tape.toArray
    pointer := s.pointer.1
    position := position
    steps := origin.steps + steps
    bytesRead := origin.bytesRead + s.bytesRead
    bytesWritten := origin.bytesWritten + s.bytesWritten
    emptyReads := origin.emptyReads + s.emptyReads }
  input := .memory (.bytes s.unread)
  sink := sink.after s.output

variable (s : Store size) (origin : State) (sink : Sink) (p n : Nat)

theorem config_ofState (s : State) (h : s.InRange) (bytes : List UInt8) (sink : Sink) :
    (ofState s h bytes).config s sink 0 0 = Config.start s (.memory (.bytes bytes)) sink := by
  have hp : (s.pointer.toNat : Int) = s.pointer := Int.toNat_of_nonneg h.pointer_nonneg
  simp [config, ofState, Config.start, hp]

theorem tick_config : (s.config origin sink p n).tick = s.config origin sink p (n + 1) := by
  simp [config, Config.tick, Int.add_assoc]

theorem goto_config (q : Nat) :
    (s.config origin sink p n).goto q = s.config origin sink q n := rfl

theorem inRange_config : (s.config origin sink p n).state.InRange :=
  ⟨Int.natCast_nonneg _, by simp [config]⟩

theorem cell_config : (s.config origin sink p n).state.cell = .ok s.cell := by
  rw [(inRange_config s origin sink p n).cell_eq]
  simp [State.value, config, cell]

theorem succ_val (p : Fin size) : ((succ p).1 : Int) = ((p.1 : Int) + 1) % size := by
  have hp := p.2
  unfold succ
  split_ifs with h
  · rw [Int.emod_eq_of_lt (by omega) (by omega)]
    rfl
  · have he : (p.1 : Int) + 1 = size := by omega
    rw [he, Int.emod_self]
    rfl

theorem pred_val (p : Fin size) : ((pred p).1 : Int) = ((p.1 : Int) + -1) % size := by
  have hp := p.2
  unfold pred
  split_ifs with h
  · rw [h, ← Int.add_emod_right, Int.emod_eq_of_lt (by omega) (by omega)]
    dsimp only
    omega
  · rw [Int.emod_eq_of_lt (by omega) (by omega)]
    dsimp only
    omega

theorem move_config (d : Int) (q : Fin size) (hq : (q.1 : Int) = (s.pointer.1 + d) % size) :
    (s.config origin sink p n).move d =
      .running ({ s with pointer := q }.config origin sink (p + 1) n) := by
  have hs : size ≠ 0 := by have := s.pointer.2; omega
  simp [Config.move, config, Config.next, hs, hq]

theorem modify_config (f : UInt8 → UInt8) :
    (s.config origin sink p n).modify f =
      .running ((s.put (f s.cell)).config origin sink (p + 1) n) := by
  have hi : State.cellIndex s.tape.toArray.size s.pointer.1 = .ok s.pointer.1 :=
    (inRange_config s origin sink p n).cellIndex_eq
  have ht : s.tape.toArray.modify s.pointer.1 f = (s.put (f s.cell)).tape.toArray := by
    apply Array.ext_getElem?
    intro i
    by_cases hip : s.pointer.1 = i
    · subst hip
      simp [put, cell, Array.getElem_modify_self]
    · simp [put, Array.getElem?_modify, hip]
  simp only [Config.modify, config, hi, ht]
  rfl

theorem write_config (hk : sink.NeverFails) :
    (s.config origin sink p n).write =
      .running ((s.act (some .output)).config origin sink (p + 1) n) := by
  rw [Config.write, cell_config]
  simp [config, hk.put_after, Config.next, act, Int.add_assoc]

theorem read_config :
    (s.config origin sink p n).read = .running (s.take.config origin sink (p + 1) n) := by
  have hr : (s.config origin sink p n).input.read 1 =
      (.data (.bytes (s.unread.take 1)), .memory (.bytes (s.unread.drop 1))) := rfl
  have hs := inRange_config s origin sink p n
  cases hu : s.unread with
  | nil =>
    rw [hu] at hr
    rw [Config.read_of_byte? hs hr rfl]
    simp [take, hu, config, put, State.receive, State.store, Config.next, Reply.missed?,
      Array.setIfInBounds, Int.add_assoc]
  | cons b unread =>
    rw [hu] at hr
    rw [Config.read_of_byte? hs hr rfl]
    simp [take, hu, config, put, State.receive, State.store, Config.next, Reply.missed?,
      Array.setIfInBounds, Int.add_assoc]

/-- A plain instruction changes the machine as it changes the store. -/
theorem perform_config (image : Image) (hk : sink.NeverFails) {i : Option Command}
    (hi : IsPlain i) :
    image.perform i (s.config origin sink p n) =
      .running ((s.act i).config origin sink (p + 1) n) := by
  cases i with
  | none => rfl
  | some i =>
    cases i with
    | right => exact move_config s origin sink p n 1 _ (succ_val s.pointer)
    | left => exact move_config s origin sink p n (-1) _ (pred_val s.pointer)
    | increment => exact modify_config s origin sink p n (· + 1)
    | decrement => exact modify_config s origin sink p n (· - 1)
    | output => exact write_config s origin sink p n hk
    | input => exact read_config s origin sink p n
    | loopStart => exact absurd rfl hi.1
    | loopEnd => exact absurd rfl hi.2

/-! ### Steps of a machine that holds a store -/

variable {s origin sink p n} {code : Text} {t : JumpTable}

theorem step_single (hk : sink.NeverFails) {x : PlainPoint} (hx : code[p]? = some x.1) :
    (Image.ofTable code t).step (s.config origin sink p n) =
      .running ((s.act (Command.ofCodePoint? x.1)).config origin sink (p + 1) (n + 1)) := by
  rw [Image.step_of_getElem? rfl hx, tick_config]
  exact perform_config s origin sink p (n + 1) _ hk x.2

/-- A bracket of a loop leads into the body if the cell is not zero, and else past the loop. -/
theorem step_bracket (ht : t.Holds code code.length) {i j : Nat} (he : code.Encloses i j)
    (hp : p = i ∨ p = j) :
    (Image.ofTable code t).step (s.config origin sink p n) =
      .running (s.config origin sink (if s.cell = 0 then j + 1 else i + 1) (n + 1)) := by
  have hp' : (s.config origin sink p n).state.position = i ∨
      (s.config origin sink p n).state.position = j := by
    rcases hp with rfl | rfl
    · exact .inl rfl
    · exact .inr rfl
  rw [Image.step_of_encloses ht he hp' (cell_config s origin sink p n), tick_config,
    goto_config]

/-- From the end of a loop a run goes on as from its start. -/
theorem advance_loopEnd (ht : t.Holds code code.length) {i j : Nat} (he : code.Encloses i j)
    {m : Nat} (hm : 0 < m) :
    (Image.ofTable code t).advance m (s.config origin sink j n) =
      (Image.ofTable code t).advance m (s.config origin sink i n) := by
  obtain ⟨m, rfl⟩ : ∃ k, m = k + 1 := ⟨m - 1, by omega⟩
  rw [Image.advance_succ, Image.advance_succ, step_bracket ht he (.inr rfl),
    step_bracket ht he (.inl rfl)]

end Store

namespace Block

variable {size p k : Nat} {b : Block} {s s' : Store size} {sink : Sink} {code : Text}
  {t : JumpTable}

/-- The machine follows the run of a block. -/
theorem Runs.advance (h : b.Runs s k s') (hk : sink.NeverFails) (ht : t.Holds code code.length)
    (hb : b.At code p) (origin : State) (n : Nat) :
    (Image.ofTable code t).advance k (s.config origin sink p n) =
      .running (s'.config origin sink (p + b.length) (n + k)) := by
  induction h generalizing p n with
  | done => rfl
  | @single x rest s k s' next ih =>
    rw [Image.advance_succ, Store.step_single hk hb.1, Progress.andThen, ih hb.2]
    congr 2
    · simp only [length]
      omega
    · omega
  | @loopSkip body rest s k s' zero next ih =>
    obtain ⟨he, -, hr⟩ := hb
    rw [Image.advance_succ, Store.step_bracket ht he (.inl rfl), if_pos zero, Progress.andThen,
      ih hr]
    congr 2
    · simp only [length]
      omega
    · omega
  | @loopRound body rest s m s₁ k s' nonzero round again ihb ihl =>
    obtain ⟨he, hbody, hr⟩ := hb
    -- into the body, through it, and on from the loop's end as if from its start
    have h₁ : (Image.ofTable code t).advance 1 (s.config origin sink p n) =
        .running (s.config origin sink (p + 1) (n + 1)) := by
      rw [Image.advance_one, Store.step_bracket ht he (.inl rfl), if_neg nonzero]
    have h₂ := ihb hbody (n + 1)
    have h₃ := ihl ⟨he, hbody, hr⟩ (n + 1 + m)
    rw [show m + 1 + k = 1 + (m + k) by omega, Image.advance_trans h₁, Image.advance_trans h₂,
      show p + 1 + body.length = p + body.length + 1 by omega,
      Store.advance_loopEnd ht he again.loop_pos, h₃]
    congr 2
    omega

/-- If the machine ends after `m` steps from where a block stands, the block has a run. -/
theorem exists_runs {origin : State} {m n : Nat} (hk : sink.NeverFails)
    (ht : t.Holds code code.length) (hb : b.At code p) {o : Outcome}
    (h : ((Image.ofTable code t).advance m (s.config origin sink p n)).outcome? = some o) :
    ∃ k s', b.Runs s k s' ∧ k ≤ m := by
  -- on the number of steps: a round of a loop leaves fewer of them for the loop itself
  induction m using Nat.strong_induction_on generalizing b s p n with
  | _ m ih =>
    obtain _ | m := m
    · simp [Progress.outcome?] at h
    rw [Image.advance_succ] at h
    cases b with
    | done => exact ⟨0, s, .done, by omega⟩
    | single x rest =>
      rw [Store.step_single hk hb.1] at h
      obtain ⟨k, s', hr, hle⟩ := ih m (by omega) hb.2 h
      exact ⟨k + 1, s', .single hr, by omega⟩
    | loop body rest =>
      obtain ⟨he, hbody, hrest⟩ := hb
      rw [Store.step_bracket ht he (.inl rfl)] at h
      by_cases hz : s.cell = 0
      · rw [if_pos hz] at h
        obtain ⟨k, s', hr, hle⟩ := ih m (by omega) hrest h
        exact ⟨k + 1, s', .loopSkip hz hr, by omega⟩
      · rw [if_neg hz] at h
        obtain ⟨k₁, s₁, hr₁, hle₁⟩ := ih m (by omega) hbody h
        have h₁ := hr₁.advance hk ht hbody origin (n + 1)
        rw [Progress.andThen, show m = k₁ + (m - k₁) by omega, Image.advance_trans h₁,
          show p + 1 + body.length = p + body.length + 1 by omega] at h
        have hpos : 0 < m - k₁ := by
          by_contra h₀
          rw [show m - k₁ = 0 by omega] at h
          simp [Progress.outcome?] at h
        rw [Store.advance_loopEnd ht he hpos] at h
        obtain ⟨k₂, s₂, hr₂, hle₂⟩ := ih (m - k₁) (by omega)
          (b := loop body rest) ⟨he, hbody, hrest⟩ h
        exact ⟨k₁ + 1 + k₂, s₂, .loopRound hz hr₁ hr₂, by omega⟩

end Block

namespace Execution

variable {code : Text} {t : JumpTable}

/-- Running a program is running its block: the machine ends exactly if the block has a run, and
then at the end of the program with what the run leaves. -/
theorem run_iff_block_runs (h : JumpTable.resolve code = .ok t) (s : State) (hs : s.InRange)
    (memory : Memory) (tapeSize : Int) (bytes : List UInt8) (sink : Sink) (hk : sink.NeverFails) :
    ∃ b x, Block.parse? code = some b ∧ b.text = code ∧
      start memory code none (some s) tapeSize (.memory (.bytes bytes)) sink = .ok x ∧
      ∀ o, (∃ n, x.run n = some o) ↔ ∃ k s', b.Runs (Store.ofState s hs bytes) k s' ∧
        o = ⟨none, s'.config s sink code.length k⟩ := by
  have ht := JumpTable.holds_of_resolve h
  obtain ⟨b, hb⟩ := Block.exists_parse? (JumpTable.balanced_of_resolve h)
  have hc := Block.parse?_eq_some.mp hb
  refine ⟨b, _, hb, hc, start_of_resolve h memory s tapeSize _ sink, fun o => ?_⟩
  have hat : b.At code 0 := hc ▸ b.at_text
  have hl : b.length = code.length := by rw [← hc, Block.length_text]
  -- a run of the block, as an outcome of the machine
  have hrun : ∀ k s', b.Runs (Store.ofState s hs bytes) k s' →
      ((Image.ofTable code t).advance (k + 1)
        (Config.start s (.memory (.bytes bytes)) sink)).outcome? =
        some ⟨none, s'.config s sink code.length k⟩ := by
    intro k s' hr
    have ha := hr.advance hk ht hat s 0
    rw [Store.config_ofState, Nat.zero_add, Nat.zero_add, hl] at ha
    rw [Image.advance_trans ha, Image.advance_one, Image.step_of_length_le le_rfl]
    rfl
  constructor
  · rintro ⟨n, hn⟩
    rw [run, ← Store.config_ofState s hs] at hn
    obtain ⟨k, s', hr, -⟩ := Block.exists_runs hk ht hat hn
    rw [Store.config_ofState] at hn
    exact ⟨k, s', hr, Image.outcome?_unique hn (hrun k s' hr)⟩
  · rintro ⟨k, s', hr, rfl⟩
    exact ⟨k + 1, hrun k s' hr⟩

/-- A loop that writes a countdown from the byte it reads. -/
theorem run_iff_block_runs_countdown :
    ∃ b x, Block.parse? (Text.ofString ",[.-]") = some b ∧ b.text = Text.ofString ",[.-]" ∧
      start (.upTo 9) (Text.ofString ",[.-]") none (some { tape := #[0, 9], pointer := 1 }) 0
        (.memory (.bytes [3])) {} = .ok x ∧
      ∀ o, (∃ n, x.run n = some o) ↔
        ∃ k s', b.Runs (Store.ofState { tape := #[0, 9], pointer := 1 }
          ⟨by decide, by decide⟩ [3]) k s' ∧
          o = ⟨none, s'.config { tape := #[0, 9], pointer := 1 } {} 5 k⟩ :=
  run_iff_block_runs rfl { tape := #[0, 9], pointer := 1 } ⟨by decide, by decide⟩ _ 0 [3] {}
    ⟨rfl, fun _ => rfl⟩

end Execution

end Brainfuck
