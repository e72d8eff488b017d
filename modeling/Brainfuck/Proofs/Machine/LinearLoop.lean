import Brainfuck.Proofs.Machine.Ring
import Mathlib.Algebra.Ring.Int.Defs
import Mathlib.Data.List.Induction
import Mathlib.Order.Lattice.Nat

/-! Loops that only count. The body of such a loop moves the pointer and changes cells, and brings
the pointer back to where it was, if need be round the end of the tape. Every round then adds the
same numbers to the same cells, so that `k` rounds add `k` times as much, and the loop ends with the
first round that leaves zero in the cell it started from; if there is none, it never ends. -/

namespace Brainfuck

/-! ### What a body counts -/

namespace Command

/-- A command that only moves the pointer or changes a cell. -/
def IsLinear (c : Command) : Prop := c = right ∨ c = left ∨ c = increment ∨ c = decrement

instance (c : Command) : Decidable c.IsLinear := inferInstanceAs (Decidable (_ ∨ _))

/-- How far a command moves the pointer to the right. -/
def distance : Command → Int
  | right => 1
  | left => -1
  | _ => 0

/-- What a command adds to the cell at the pointer. -/
def amount : Command → Int
  | increment => 1
  | decrement => -1
  | _ => 0

theorem IsLinear.isPlain {c : Command} (h : c.IsLinear) : IsPlain (some c) := by
  rcases h with rfl | rfl | rfl | rfl <;> decide

end Command

/-- How far commands move the pointer to the right altogether. -/
def displacement (body : List Command) : Int := (body.map Command.distance).sum

/-- How often `command` is carried out in `body` with the pointer `d` places on from where it was at
the start, on a ring of `size` cells. -/
def timesAt (command : Command) (body : List Command) (size : Nat) (d : Int) : Nat :=
  (List.range body.length).countP fun i =>
    body[i]? = some command ∧ displacement (body.take i) % size = d

/-- What `body` adds to the cell `d` places on from where it starts, on a ring of `size` cells. -/
def delta (body : List Command) (size : Nat) (d : Int) : Int :=
  timesAt .increment body size d - timesAt .decrement body size d

section Delta

variable (body : List Command) (command : Command) (size : Nat) (d : Int)

theorem displacement_append_singleton :
    displacement (body ++ [command]) = displacement body + command.distance := by
  simp [displacement]

theorem timesAt_append_singleton (c : Command) :
    timesAt c (body ++ [command]) size d =
      timesAt c body size d + if command = c ∧ displacement body % size = d then 1 else 0 := by
  unfold timesAt
  rw [List.length_append, List.length_singleton, List.range_succ, List.countP_append,
    List.countP_singleton]
  congr 1
  · -- the commands before the last one have the same commands before them
    apply List.countP_congr
    intro i hi
    have hlt : i < body.length := List.mem_range.mp hi
    rw [List.getElem?_append_left hlt, List.take_append_of_le_length hlt.le]
  · simp

theorem delta_append_singleton :
    delta (body ++ [command]) size d =
      delta body size d + if displacement body % size = d then command.amount else 0 := by
  unfold delta
  rw [timesAt_append_singleton, timesAt_append_singleton]
  by_cases hd : displacement body % size = d
  · cases command <;> simp [hd, Command.amount] <;> omega
  · simp [hd]

end Delta

/-! ### What a body does to the tape -/

theorem ofInt_zero : UInt8.ofInt 0 = 0 := rfl

theorem toNat_add_ofInt (b : UInt8) (x : Int) :
    ((b + UInt8.ofInt x).toNat : Int) = (b.toNat + x) % 256 := by
  have hx : ((UInt8.ofInt x).toNat : Int) = x % 256 := by
    rw [UInt8.ofInt, UInt8.toNat_ofNat']
    omega
  rw [UInt8.toNat_add]
  omega

namespace State

/-- The tape with `f d` added to the cell `d` places on from `p`, for every `d`. -/
def addAround (p : Int) (f : Int → Int) (tape : Array UInt8) : Array UInt8 :=
  Array.ofFn fun i : Fin tape.size =>
    tape.getD i 0 + UInt8.ofInt (f (((i : Int) - p) % tape.size))

/-- The state once a command that is linear was carried out. -/
def act (s : State) (command : Command) : State :=
  { s with
    tape := s.tape.modify s.pointer.toNat (· + UInt8.ofInt command.amount)
    pointer := (s.pointer + command.distance) % s.tape.size
    position := s.position + 1
    steps := s.steps + 1 }

variable {s : State} {p e : Int} {f g : Int → Int} {tape : Array UInt8}

@[simp]
theorem size_addAround (p : Int) (f : Int → Int) (tape : Array UInt8) :
    (addAround p f tape).size = tape.size := by
  simp [addAround]

theorem getElem_addAround {i : Nat} (hi : i < (addAround p f tape).size) :
    (addAround p f tape)[i] =
      tape.getD i 0 + UInt8.ofInt (f (((i : Int) - p) % tape.size)) := by
  simp only [addAround, Array.getElem_ofFn]

theorem getD_addAround (he : 0 ≤ e) (he' : e < tape.size) :
    (addAround p f tape).getD ((p + e) % tape.size).toNat 0 =
      tape.getD ((p + e) % tape.size).toNat 0 + UInt8.ofInt (f e) := by
  have hq : 0 ≤ (p + e) % tape.size := Int.emod_nonneg _ (by omega)
  have hq' : (p + e) % tape.size < tape.size := Int.emod_lt_of_pos _ (by omega)
  have hd : ((p + e) % tape.size - p) % tape.size = e := by
    rw [sub_emod_eq_iff he he' hq hq', Int.add_comm]
  rw [Array.getD_eq_getD_getElem?, Array.getElem?_eq_getElem (by rw [size_addAround]; omega),
    getElem_addAround, Int.toNat_of_nonneg hq, hd, Option.getD_some]

theorem addAround_zero (p : Int) (tape : Array UInt8) : addAround p (fun _ => 0) tape = tape := by
  apply Array.ext (size_addAround p _ tape)
  intro i hi hi'
  rw [getElem_addAround, Array.getD_eq_getD_getElem?, Array.getElem?_eq_getElem hi',
    Option.getD_some, ofInt_zero, UInt8.add_zero]

theorem addAround_addAround (p : Int) (f g : Int → Int) (tape : Array UInt8) :
    addAround p g (addAround p f tape) = addAround p (fun d => f d + g d) tape := by
  apply Array.ext (by simp)
  intro i hi hi'
  have hlt : i < (addAround p f tape).size := by simpa using hi'
  rw [getElem_addAround, getElem_addAround, size_addAround, Array.getD_eq_getD_getElem?,
    Array.getElem?_eq_getElem hlt, getElem_addAround, Option.getD_some, UInt8.ofInt_add,
    UInt8.add_assoc]

/-- To add to the cell `e` places on is to add `a` more there than elsewhere. -/
theorem modify_addAround (hsize : 0 < tape.size) (p e a : Int) (f : Int → Int) :
    (addAround p f tape).modify ((p + e) % tape.size).toNat (· + UInt8.ofInt a) =
      addAround p (fun d => f d + if e % tape.size = d then a else 0) tape := by
  have hq : 0 ≤ (p + e) % tape.size := Int.emod_nonneg _ (by omega)
  apply Array.ext (by simp)
  intro i hi hi'
  have hlt : i < tape.size := by simpa using hi'
  have hiff : ((p + e) % tape.size).toNat = i ↔ e % tape.size = (i - p) % tape.size := by
    have h := sub_emod_eq_iff (k := p) (Int.emod_nonneg e (by omega))
      (Int.emod_lt_of_pos e (show (0 : Int) < tape.size by omega)) (Int.natCast_nonneg i)
      (Int.ofNat_lt.mpr hlt)
    rw [Int.emod_add_emod, Int.add_comm e p] at h
    omega
  rw [Array.getElem_modify, getElem_addAround, getElem_addAround, UInt8.ofInt_add]
  by_cases hset : ((p + e) % tape.size).toNat = i
  · rw [if_pos hset, if_pos (hiff.mp hset), UInt8.add_assoc]
  · rw [if_neg hset, if_neg (mt hiff.mpr hset), ofInt_zero, UInt8.add_zero]

theorem InRange.act (h : s.InRange) (command : Command) : (s.act command).InRange := by
  have h₀ := h.pointer_nonneg
  have h₁ := h.pointer_lt
  constructor
  · exact Int.emod_nonneg _ (by omega)
  · simp only [State.act, Array.size_modify]
    exact Int.emod_lt_of_pos _ (by omega)

/-- Commands in a row add what they count, and move the pointer by what they move it. -/
theorem InRange.foldl_act (h : s.InRange) (body : List Command) :
    body.foldl State.act s = { s with
      tape := addAround s.pointer (delta body s.tape.size) s.tape
      pointer := (s.pointer + displacement body) % s.tape.size
      position := s.position + body.length
      steps := s.steps + body.length } := by
  have h₀ := h.pointer_nonneg
  have h₁ := h.pointer_lt
  induction body using List.reverseRecOn with
  | nil =>
    have hdelta : delta [] s.tape.size = fun _ => 0 := rfl
    have hp : (s.pointer + displacement []) % s.tape.size = s.pointer := by
      simp [displacement, Int.emod_eq_of_lt h₀ h₁]
    simp [hdelta, hp, addAround_zero]
  | append_singleton body command ih =>
    have hdelta : delta (body ++ [command]) s.tape.size = fun d => delta body s.tape.size d +
        if displacement body % s.tape.size = d then command.amount else 0 := by
      funext d
      exact delta_append_singleton body command s.tape.size d
    rw [List.foldl_append, ih, List.foldl_cons, List.foldl_nil, State.act, hdelta,
      ← modify_addAround (by omega), displacement_append_singleton, size_addAround,
      Int.emod_add_emod, Int.add_assoc, List.length_append, List.length_singleton]
    simp [Int.add_assoc]

end State

/-! ### Running a body -/

namespace Image

variable {code rest : Text} {t : JumpTable} {c : Config} {p : Nat} {command : Command}
  {body : List Command}

theorem perform_linear (image : Image) (hl : command.IsLinear) (h : c.state.InRange) :
    image.perform (some command) c.tick = .running { c with state := c.state.act command } := by
  have h₀ := h.pointer_nonneg
  have h₁ := h.pointer_lt
  have hsize : 0 < c.tick.state.tape.size := show 0 < c.state.tape.size by omega
  have hindex : State.cellIndex c.tick.state.tape.size c.tick.state.pointer =
      .ok c.state.pointer.toNat := h.cellIndex_eq
  have hkeep : c.state.tape.modify c.state.pointer.toNat (· + UInt8.ofInt 0) = c.state.tape := by
    apply Array.ext (by simp)
    intro i hi hi'
    simp [Array.getElem_modify, ofInt_zero]
  have hstay : (c.state.pointer + 0) % c.state.tape.size = c.state.pointer := by
    rw [Int.add_zero, Int.emod_eq_of_lt h₀ h₁]
  rcases hl with rfl | rfl | rfl | rfl
  · rw [perform, Config.move_of_pos hsize]
    simp only [State.act, Command.amount, Command.distance, hkeep]
    rfl
  · rw [perform, Config.move_of_pos hsize]
    simp only [State.act, Command.amount, Command.distance, hkeep]
    rfl
  · simp only [perform, Config.modify, hindex, State.act, Command.amount, Command.distance, hstay]
    rfl
  · have hsub : (fun b : UInt8 => b - 1) = fun b => b + UInt8.ofInt (-1) := by
      funext b
      rw [UInt8.sub_eq_add_neg]
      rfl
    simp only [perform, Config.modify, hindex, State.act, Command.amount, Command.distance, hstay,
      hsub]
    rfl

theorem advance_linear (hbody : ∀ command ∈ body, command.IsLinear)
    (hcode : code.drop p = Text.ofCommands body ++ rest) (hp : c.state.position = p)
    (h : c.state.InRange) :
    (ofTable code t).advance body.length c =
      .running { c with state := body.foldl State.act c.state } := by
  induction body generalizing c p with
  | nil => rfl
  | cons command body ih =>
    obtain ⟨hx, hrest⟩ := Text.of_drop_eq_cons hcode
    have hstep : (ofTable code t).step c = .running { c with state := c.state.act command } := by
      rw [step_of_getElem? hp hx, Command.ofCodePoint?_codePoint]
      exact perform_linear _ (hbody command List.mem_cons_self) h
    rw [List.length_cons, advance_succ, hstep, Progress.andThen]
    exact ih (fun command hc => hbody command (List.mem_cons_of_mem _ hc)) hrest
      (by simp [State.act, hp]) (h.act command)

end Image

/-! ### Running a loop -/

def Text.ofLoop (body : List Command) : Text :=
  Command.loopStart.codePoint :: (Text.ofCommands body ++ [Command.loopEnd.codePoint])

namespace Text

variable {body : List Command}

@[simp]
theorem length_ofLoop (body : List Command) : (ofLoop body).length = body.length + 2 := by
  simp [ofLoop, ofCommands]

theorem balanced_ofCommands (hbody : ∀ c ∈ body, c.IsLinear) : (ofCommands body).Balanced := by
  induction body with
  | nil => exact balanced_nil
  | cons c body ih =>
    refine Balanced.cons_plain ?_ (ih fun d hd => hbody d (List.mem_cons_of_mem _ hd))
    rw [Command.ofCodePoint?_codePoint]
    exact (hbody c List.mem_cons_self).isPlain

theorem balanced_ofLoop (hbody : ∀ c ∈ body, c.IsLinear) : (ofLoop body).Balanced :=
  (balanced_ofCommands hbody).loop balanced_nil

theorem encloses_ofLoop (hbody : ∀ c ∈ body, c.IsLinear) :
    (ofLoop body).Encloses 0 (body.length + 1) := by
  have h := (balanced_ofCommands hbody).encloses [] []
  simpa [ofLoop, ofCommands] using h

end Text

namespace State

/-- The state at a bracket of the loop, once its body was run `k` times. -/
def turn (body : List Command) (k : Nat) (position : Int) (s : State) : State :=
  { s with
    tape := addAround s.pointer (fun d => k * delta body s.tape.size d) s.tape
    position
    steps := s.steps + k * (body.length + 1) }

/-- Once `body` was run `k` times the cell it started from is zero. -/
def ClearedBy (body : List Command) (s : State) (k : Nat) : Prop :=
  (s.value.toNat + k * delta body s.tape.size 0) % 256 = 0

instance (body : List Command) (s : State) (k : Nat) : Decidable (s.ClearedBy body k) :=
  inferInstanceAs (Decidable (_ = _))

variable {s : State} {body : List Command} {k : Nat} {q : Int}

theorem turn_zero (body : List Command) (q : Int) (s : State) :
    s.turn body 0 q = { s with position := q } := by
  simp [turn, addAround_zero]

theorem InRange.turn (h : s.InRange) (body : List Command) (k : Nat) (q : Int) :
    (s.turn body k q).InRange :=
  ⟨h.pointer_nonneg, by simpa [State.turn] using h.pointer_lt⟩

theorem InRange.value_turn (h : s.InRange) (body : List Command) (k : Nat) (q : Int) :
    (s.turn body k q).value = s.value + UInt8.ofInt (k * delta body s.tape.size 0) := by
  have h₀ := h.pointer_nonneg
  have h₁ := h.pointer_lt
  have hp : (s.pointer + 0) % s.tape.size = s.pointer := by
    rw [Int.add_zero, Int.emod_eq_of_lt h₀ h₁]
  have hsize : (0 : Int) < s.tape.size := by omega
  have hcell := getD_addAround (p := s.pointer) (f := fun d => k * delta body s.tape.size d)
    le_rfl hsize
  rwa [hp] at hcell

theorem InRange.value_turn_eq_zero_iff (h : s.InRange) (body : List Command) (k : Nat) (q : Int) :
    (s.turn body k q).value = 0 ↔ s.ClearedBy body k := by
  rw [h.value_turn, ← UInt8.toNat_inj, ClearedBy, ← toNat_add_ofInt]
  exact Int.natCast_eq_zero.symm

/-- One more round adds as much as the ones before. -/
theorem InRange.foldl_act_turn (h : s.InRange) (hd : displacement body % s.tape.size = 0) :
    body.foldl State.act { s.turn body k 1 with steps := (s.turn body k 1).steps + 1 } =
      s.turn body (k + 1) (body.length + 1) := by
  have hr := h.turn body k 1
  have hstep : State.InRange { s.turn body k 1 with steps := (s.turn body k 1).steps + 1 } :=
    ⟨hr.pointer_nonneg, hr.pointer_lt⟩
  have hp : (s.pointer + displacement body) % s.tape.size = s.pointer := by
    rw [Int.add_emod, hd, Int.add_zero, Int.emod_emod,
      Int.emod_eq_of_lt h.pointer_nonneg h.pointer_lt]
  have hsum : (fun d => (k : Int) * delta body s.tape.size d + delta body s.tape.size d) =
      fun d => (k + 1 : Nat) * delta body s.tape.size d := by
    funext d
    rw [Int.natCast_add_one, Int.add_mul, Int.one_mul]
  have hsteps : s.steps + k * (body.length + 1) + 1 + body.length =
      s.steps + (k + 1 : Nat) * (body.length + 1) := by
    rw [Int.natCast_add_one, Int.add_mul]
    omega
  rw [hstep.foldl_act]
  simp only [State.turn, size_addAround, addAround_addAround, hsum, hp, hsteps]
  simp [Int.add_comm]

end State

namespace Image

variable {s : State} {body : List Command} {t : JumpTable} {k : Nat} {q : Int}
  {input : Input} {sink : Sink}

/-- A round of the loop leads from one bracket, whichever it is, to the second. -/
theorem advance_round (hbody : ∀ c ∈ body, c.IsLinear) (hs : s.InRange)
    (hd : displacement body % s.tape.size = 0)
    (ht : t.Holds (Text.ofLoop body) (Text.ofLoop body).length)
    (hq : q = 0 ∨ q = body.length + 1) (hk : ¬ s.ClearedBy body k) :
    (ofTable (Text.ofLoop body) t).advance (body.length + 1)
        { state := s.turn body k q, input, sink } =
      .running { state := s.turn body (k + 1) (body.length + 1), input, sink } := by
  have hr := hs.turn body k q
  have hstep := step_of_encloses (c := { state := s.turn body k q, input, sink }) ht
    (Text.encloses_ofLoop hbody) (by simpa [State.turn] using hq) hr.cell_eq
  rw [if_neg (mt (hs.value_turn_eq_zero_iff body k q).mp hk)] at hstep
  rw [advance_succ, hstep, Progress.andThen, advance_linear hbody (p := 1) rfl rfl
    ⟨hr.pointer_nonneg, hr.pointer_lt⟩, ← hs.foldl_act_turn hd]
  rfl

theorem advance_rounds (hbody : ∀ c ∈ body, c.IsLinear) (hs : s.InRange)
    (hd : displacement body % s.tape.size = 0)
    (ht : t.Holds (Text.ofLoop body) (Text.ofLoop body).length)
    (hk : ∀ j < k, ¬ s.ClearedBy body j) (input : Input) (sink : Sink) :
    ∃ q : Int, (q = 0 ∨ q = body.length + 1) ∧
      (ofTable (Text.ofLoop body) t).advance (k * (body.length + 1))
        (Config.start s input sink) = .running { state := s.turn body k q, input, sink } := by
  induction k with
  | zero =>
    refine ⟨0, .inl rfl, ?_⟩
    rw [Nat.zero_mul, State.turn_zero]
    rfl
  | succ k ih =>
    obtain ⟨q, hq, hadvance⟩ := ih fun j hj => hk j (by omega)
    refine ⟨body.length + 1, .inr rfl, ?_⟩
    rw [Nat.succ_mul, advance_trans hadvance]
    exact advance_round hbody hs hd ht hq (hk k (by omega))

/-- Once the cell is cleared the loop is left, and with it the program. -/
theorem advance_cleared (hbody : ∀ c ∈ body, c.IsLinear) (hs : s.InRange)
    (hd : displacement body % s.tape.size = 0)
    (ht : t.Holds (Text.ofLoop body) (Text.ofLoop body).length)
    (hk : IsLeast {j | s.ClearedBy body j} k) :
    (ofTable (Text.ofLoop body) t).advance (k * (body.length + 1) + 2)
        (Config.start s input sink) =
      .finished { state := { s.turn body k (body.length + 2) with
        steps := s.steps + (1 + k * (body.length + 1)) }, input, sink } := by
  have hbefore : ∀ j < k, ¬ s.ClearedBy body j := by
    intro j hj hcleared
    exact Nat.not_le.mpr hj (hk.2 hcleared)
  obtain ⟨q, hq, hadvance⟩ := advance_rounds hbody hs hd ht hbefore input sink
  have hstep := step_of_encloses (c := { state := s.turn body k q, input, sink }) ht
    (Text.encloses_ofLoop hbody) (by simpa [State.turn] using hq) (hs.turn body k q).cell_eq
  rw [if_pos ((hs.value_turn_eq_zero_iff body k q).mpr hk.1)] at hstep
  have hsteps : s.steps + k * (body.length + 1) + 1 = s.steps + (1 + k * (body.length + 1)) := by
    omega
  rw [advance_trans hadvance, advance_succ, hstep, Progress.andThen, advance_one,
    step_of_length_le (by simp [Config.goto]; omega)]
  simp only [State.turn, Config.tick, Config.goto, hsteps]
  simp [Int.add_assoc]

end Image

/-- The machine `d` is what is left of `s` by a loop that ran its body `k` times. -/
structure Config.Turned (body : List Command) (k : Nat) (s : State) (input : Input) (sink : Sink)
    (d : Config) : Prop where
  /-- But for the tape, only the position and the number of steps are new. -/
  config_eq : d = {
    state := { s with
      tape := d.state.tape
      position := body.length + 2
      steps := s.steps + (1 + k * (body.length + 1)) }
    input
    sink }
  size_eq : d.state.tape.size = s.tape.size
  /-- To the cell `e` places on from the pointer was added `k` times what the body adds to it. -/
  cell_eq : ∀ e : Nat, e < s.tape.size →
    ((d.state.tape.getD ((s.pointer + e) % s.tape.size).toNat 0).toNat : Int) =
      ((s.tape.getD ((s.pointer + e) % s.tape.size).toNat 0).toNat +
        k * delta body s.tape.size e) % 256

theorem Config.turned_turn (body : List Command) (k : Nat) (s : State) (input : Input)
    (sink : Sink) :
    Turned body k s input sink { state := { s.turn body k (body.length + 2) with
      steps := s.steps + (1 + k * (body.length + 1)) }, input, sink } where
  config_eq := rfl
  size_eq := by simp [State.turn]
  cell_eq e he := by
    have hcell := State.getD_addAround (p := s.pointer)
      (f := fun d => k * delta body s.tape.size d) (Int.natCast_nonneg e) (Int.ofNat_lt.mpr he)
    rw [← toNat_add_ofInt, ← hcell]
    rfl

namespace Execution

/-- A loop whose body brings the pointer back ends exactly if some number of rounds clears the cell
it starts from, and then with the least such number of rounds, each of which adds the same. -/
theorem run_linear_loop (body : List Command) (hbody : ∀ c ∈ body, c.IsLinear) (s : State)
    (hs : s.InRange) (hd : displacement body % s.tape.size = 0) (memory : Memory) (tapeSize : Int)
    (input : Input) (sink : Sink) :
    ∃ x, start memory (Text.ofLoop body) none (some s) tapeSize input sink = .ok x ∧
      ((∃ n o, x.run n = some o) ↔ ∃ k, s.ClearedBy body k) ∧
      ∀ k, IsLeast {j | s.ClearedBy body j} k →
        ∃ n d, x.run n = some ⟨none, d⟩ ∧ d.Turned body k s input sink := by
  obtain ⟨t, hresolve⟩ := JumpTable.exists_resolve_iff.mpr (Text.balanced_ofLoop hbody)
  have ht := JumpTable.holds_of_resolve hresolve
  have hend : ∀ k, IsLeast {j | s.ClearedBy body j} k →
      ∃ n d, run ⟨Image.ofTable (Text.ofLoop body) t, Config.start s input sink⟩ n =
        some ⟨none, d⟩ ∧ d.Turned body k s input sink := by
    intro k hk
    exact ⟨_, _, Progress.outcome?_eq_finished.mpr (Image.advance_cleared hbody hs hd ht hk),
      Config.turned_turn body k s input sink⟩
  refine ⟨_, start_of_resolve hresolve memory s tapeSize input sink, ⟨?_, ?_⟩, hend⟩
  · rintro ⟨n, o, hn⟩
    by_contra hnever
    -- a loop that is never cleared has more rounds than the run has steps
    obtain ⟨q, -, hadvance⟩ := Image.advance_rounds (k := n) hbody hs hd ht
      (fun j _ hj => hnever ⟨j, hj⟩) input sink
    have hlater := Image.outcome?_advance_add hn (n * body.length)
    rw [show n + n * body.length = n * (body.length + 1) by rw [Nat.mul_succ, Nat.add_comm],
      hadvance] at hlater
    simp [Progress.outcome?] at hlater
  · rintro ⟨k, hk⟩
    obtain ⟨n, d, hn, -⟩ := hend _ (isLeast_csInf ⟨k, hk⟩)
    exact ⟨n, _, hn⟩

/-- A product, formed round the end of the tape: each round takes one from the cell at the pointer
and adds three to the next cell, until this is beyond its greatest value. -/
theorem run_linear_loop_product :
    ∃ x n d, start (.upTo 9) (Text.ofString "[>+++>>-]") none
        (some { tape := #[250, 7, 2], pointer := 2 }) 0 (.closed false) { writeLimit := some 0 } =
        .ok x ∧
      x.run n = some ⟨none, d⟩ ∧ d.state.pointer = 2 ∧ d.state.steps = 17 ∧
      (d.state.tape.getD 0 0).toNat = (0 : Int) ∧ (d.state.tape.getD 1 0).toNat = (7 : Int) := by
  have hleast : IsLeast {k | State.ClearedBy [.right, .increment, .increment, .increment, .right,
      .right, .decrement] { tape := #[250, 7, 2], pointer := 2 } k} 2 := by
    refine ⟨show State.ClearedBy _ _ 2 by decide, fun k (hk : State.ClearedBy _ _ k) => ?_⟩
    by_contra hlt
    revert hk
    obtain rfl | rfl : k = 0 ∨ k = 1 := by omega
    all_goals decide
  obtain ⟨x, hx, -, hend⟩ := run_linear_loop [.right, .increment, .increment, .increment, .right,
    .right, .decrement] (by decide) { tape := #[250, 7, 2], pointer := 2 } ⟨by decide, by decide⟩
    (by decide) (.upTo 9) 0 (.closed false) { writeLimit := some 0 }
  obtain ⟨n, d, hn, hturned⟩ := hend 2 hleast
  exact ⟨x, n, d, hx, hn, by rw [hturned.config_eq], by rw [hturned.config_eq]; rfl,
    hturned.cell_eq 1 (by decide), hturned.cell_eq 2 (by decide)⟩

end Execution

end Brainfuck
