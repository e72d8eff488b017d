import Brainfuck.Proofs.Machine.Trace

/-! Programs and their input. All that a program can tell of its input is the byte that each read
puts into the cell. Inputs that supply the same bytes give the same run: only the split of the reads
into bytes and empty reads may differ. -/

namespace Brainfuck

theorem Progress.map_andThen {f : Config → Config} {g : Config → Progress} {p q : Progress}
    (h : p.map f = q.map f)
    (hg : ∀ c d, p = .running c → q = .running d → f c = f d → (g c).map f = (g d).map f) :
    (p.andThen g).map f = (q.andThen g).map f := by
  cases p <;> cases q <;> simp_all [map, andThen]

namespace Config

/-- The machine without its input. Of its reads only the number is left. -/
def blind (c : Config) : Config :=
  { c with
    state := { c.state with
      bytesRead := c.state.bytesRead + c.state.emptyReads
      emptyReads := 0 }
    input := .memory (.bytes [])
    missed := #[] }

variable {c d : Config}

theorem transparent_blind : Transparent blind := by
  constructor <;> intros <;> rfl

theorem blind_write (c : Config) : c.blind.write = c.write.map blind := by
  simp only [write, transparent_blind.cell_eq]
  cases c.state.cell with
  | error e => rfl
  | ok b =>
    simp only [show c.blind.sink = c.sink from rfl]
    cases c.sink.put b with
    | mk f? sink => cases f? <;> rfl

/-- A read that is not refused does what a read of its byte, or of a zero byte, does. -/
theorem blind_read {b? : Option UInt8} (h : (c.input.read 1).1.byte? = .ok b?) :
    c.read.map blind =
      ({ c.blind with input := .memory (.bytes [b?.getD 0]) } : Config).read.map blind := by
  simp only [read, h]
  have hb : ((Input.memory (.bytes [b?.getD 0])).read 1).1.byte? = .ok (some (b?.getD 0)) := rfl
  simp only [hb, transparent_blind.tape_eq, transparent_blind.pointer_eq]
  cases State.cellIndex c.state.tape.size c.state.pointer with
  | error e => simp [Progress.map, blind]
  | ok i =>
    cases b? with
    | none => simp [Progress.map, blind, next, State.receive, State.store, Int.add_assoc]
    | some b => simp [Progress.map, blind, next, State.receive, State.store, Int.add_right_comm]

end Config

namespace Image

variable {image : Image} {c d c' : Config} {f : Nat → UInt8}

theorem step_blind (h : image.instruction c ≠ some .input) :
    image.step c.blind = (image.step c).map Config.blind :=
  step_map Config.transparent_blind (fun _ => c.tick.blind_write) fun hi => absurd hi h

theorem instruction_of_blind (image : Image) (h : c.blind = d.blind) :
    image.instruction c = image.instruction d := by
  have hp : c.state.position = d.state.position := congrArg (·.state.position) h
  rw [instruction, instruction, hp]

/-- Machines that differ in their input only do the same if the input supplies the same byte. -/
theorem map_blind_step (h : c.blind = d.blind) (hc : c.input.Supplies f)
    (hd : d.input.Supplies f) :
    (image.step c).map Config.blind = (image.step d).map Config.blind := by
  have hi := image.instruction_of_blind h
  by_cases hr : image.instruction c = some .input
  · obtain ⟨b?, hb, hv⟩ := hc 0
    obtain ⟨b?', hb', hv'⟩ := hd 0
    rw [step_of_instruction hr, step_of_instruction (hi ▸ hr), perform, perform,
      Config.blind_read (c := c.tick) hb, Config.blind_read (c := d.tick) hb', hv, hv']
    have ht : c.tick.blind = d.tick.blind := congrArg Config.tick h
    rw [ht]
  · rw [← step_blind hr, ← step_blind (hi ▸ hr), h]

theorem supplies_of_step (hc : c.input.Supplies f) (h : image.step c = .running c') :
    c'.input.Supplies (if image.instruction c = some .input then fun j => f (j + 1) else f) := by
  have hcomplete := completes_of_step h
  generalize image.instruction c = i at hcomplete
  cases hcomplete with
  | output cell put =>
    rw [if_neg (by simp)]
    exact hc
  | input read byte index =>
    have hrest := hc.tail
    rw [show c.input.read 1 = _ from read] at hrest
    rw [if_pos rfl]
    exact hrest
  | quiet notOutput notInput quiet =>
    rw [if_neg notInput, quiet.input_eq]
    exact hc

/-- The run of a program depends only on the bytes that its input supplies. -/
theorem map_blind_advance (image : Image) (h : c.blind = d.blind) (hc : c.input.Supplies f)
    (hd : d.input.Supplies f) (n : Nat) :
    (image.advance n c).map Config.blind = (image.advance n d).map Config.blind := by
  induction n generalizing c d f with
  | zero => exact congrArg Progress.running h
  | succ n ih =>
    rw [advance_succ, advance_succ]
    refine Progress.map_andThen (map_blind_step h hc hd) fun c' d' hc' hd' hblind => ?_
    have hi := image.instruction_of_blind h
    exact ih hblind (supplies_of_step hc hc') (hi ▸ supplies_of_step hd hd')

end Image

namespace Execution

/-- The runs go side by side and can only come to their end: at any moment their machines differ
only in the input and in the split of the reads into bytes and empty reads. -/
structure ReadsAlike (x y : Execution) : Prop where
  sideBySide : ∀ n, (x.image.advance n x.config).map Config.blind =
    (y.image.advance n y.config).map Config.blind
  onlyEnds : x.OnlyEnds

/-- In the machine `d`, `n` steps after the start of `x` from the state `s`, each read has asked for
one element and used up one of the `replies`, and those with data have been counted as bytes. -/
structure UsesUp (x : Execution) (s : State) (replies : List Reply) (used : Nat)
    (requests : Array Nat) (n : Nat) (d : Config) : Prop where
  input_eq : d.input = .scripted (replies.drop (x.image.uses .input n x.config).length)
    (used + min (x.image.uses .input n x.config).length replies.length)
    (requests ++ Array.replicate (x.image.uses .input n x.config).length 1)
  bytesRead_eq : d.state.bytesRead = s.bytesRead +
    (replies.take (x.image.uses .input n x.config).length).countP Reply.hasData

variable {code : Text} {t : JumpTable}

theorem readsAlike_of_supplies (ht : t.Holds code code.length) (hb : code.Balanced) {s : State}
    (hs : s.InRange) {sink : Sink} (hk : sink.NeverFails) {input : Input} {bytes : List UInt8}
    {f : Nat → UInt8} (hi : input.Supplies f) (hm : (Input.memory (.bytes bytes)).Supplies f) :
    ReadsAlike ⟨Image.ofTable code t, Config.start s input sink⟩
      ⟨Image.ofTable code t, Config.start s (.memory (.bytes bytes)) sink⟩ := by
  have hside := (Image.ofTable code t).map_blind_advance (c := Config.start s input sink)
    (d := Config.start s (.memory (.bytes bytes)) sink) rfl hi hm
  refine ⟨hside, onlyEnds_of_error? ht hb (Config.inside_start code hs input sink)
    fun n o ho => ?_⟩
  have hmap := congrArg Progress.outcome? (hside n)
  rw [Progress.outcome?_map, Progress.outcome?_map,
    show ((Image.ofTable code t).advance n (Config.start s input sink)).outcome? = some o from ho,
    eq_comm, Option.map_some, Option.map_eq_some_iff] at hmap
  obtain ⟨o', ho', heq⟩ := hmap
  -- the input in memory can make nothing fail
  have hnone := error?_of_reliable ht hb
    (Config.inside_start code hs (.memory (.bytes bytes)) sink) ⟨⟨_, rfl⟩, hk⟩ ho'
  rw [← hnone]
  exact (congrArg Outcome.error? heq).symm

theorem usesUp_of_running {image : Image} {s : State} {replies : List Reply}
    (hr : ∀ r ∈ replies, r.Harmless) (used : Nat) (requests : Array Nat) {sink : Sink} {n : Nat}
    {d : Config}
    (hd : image.advance n (Config.start s (.scripted replies used requests) sink) = .running d) :
    UsesUp ⟨image, Config.start s (.scripted replies used requests) sink⟩ s replies used requests n
      d := by
  have htally := Image.tally_advance hd
  constructor
  · rw [htally.input_eq]
    exact Input.after_scripted replies used requests _
  · rw [htally.bytesRead_eq, Image.countP_uses_input hd fun i => i.offered.isSome,
      ← countP_range_any]
    simp only [Config.start, Input.isSome_offered_after_scripted used requests hr]

/-- Whatever an input does when it has nothing to give reads as a zero byte: a script is as good as
the bytes of its replies in memory, a closed stream as no bytes at all, and the end of the input as
zeros without end. -/
theorem readsAlike_of_resolve (h : JumpTable.resolve code = .ok t) (s : State) (hs : s.InRange)
    (memory : Memory) (tapeSize : Int) (sink : Sink) (hk : sink.NeverFails) :
    (∀ (replies : List Reply) (used : Nat) (requests : Array Nat), (∀ r ∈ replies, r.Harmless) →
      ∃ x y, start memory code none (some s) tapeSize (.scripted replies used requests) sink =
          .ok x ∧
        start memory code none (some s) tapeSize (.memory (.bytes (replies.map Reply.toByte)))
          sink = .ok y ∧
        x.ReadsAlike y ∧ ∀ n d, x.image.advance n x.config = .running d →
          x.UsesUp s replies used requests n d) ∧
    (∀ textual, ∃ x y, start memory code none (some s) tapeSize (.closed textual) sink = .ok x ∧
      start memory code none (some s) tapeSize (.memory (.bytes [])) sink = .ok y ∧
      x.ReadsAlike y) ∧
    ∀ (bytes : List UInt8) (m : Nat),
      ∃ x y, start memory code none (some s) tapeSize (.memory (.bytes bytes)) sink = .ok x ∧
        start memory code none (some s) tapeSize
          (.memory (.bytes (bytes ++ List.replicate m 0))) sink = .ok y ∧ x.ReadsAlike y := by
  have ht := JumpTable.holds_of_resolve h
  have hb := JumpTable.balanced_of_resolve h
  have hstart := fun input => start_of_resolve h memory s tapeSize input sink
  refine ⟨fun replies used requests hr => ?_, fun textual => ?_, fun bytes m => ?_⟩
  · exact ⟨_, _, hstart _, hstart _, readsAlike_of_supplies ht hb hs hk
      (Input.supplies_scripted used requests hr) (Input.supplies_memory _),
      fun n d hd => usesUp_of_running hr used requests hd⟩
  · exact ⟨_, _, hstart _, hstart _, readsAlike_of_supplies ht hb hs hk
      (Input.supplies_closed textual) (Input.supplies_memory [])⟩
  · exact ⟨_, _, hstart _, hstart _, readsAlike_of_supplies ht hb hs hk
      (Input.supplies_memory bytes) (Input.supplies_memory_append_zeros bytes m)⟩

/-- A loop that reads on after a failure of the device and after an empty reply. -/
theorem readsAlike_of_resolve_gaps :
    ∃ x y, start (.upTo 9) (Text.ofString "+[,.,.,.]") none (some { tape := #[0] }) 0
        (.script [.data (.bytes [65, 66]), .fault ⟨.device, []⟩, .data (.text [⟨0x141, by decide⟩]),
          .nothing, .data (.bytes [7])]) {} = .ok x ∧
      start (.upTo 9) (Text.ofString "+[,.,.,.]") none (some { tape := #[0] }) 0
        (.memory (.bytes [65, 0, 0x41, 0, 7])) {} = .ok y ∧
      x.ReadsAlike y ∧ ∀ n d, x.image.advance n x.config = .running d →
        x.UsesUp { tape := #[0] } [.data (.bytes [65, 66]), .fault ⟨.device, []⟩,
          .data (.text [⟨0x141, by decide⟩]), .nothing, .data (.bytes [7])] 0 #[] n d :=
  (readsAlike_of_resolve rfl { tape := #[0] } ⟨by decide, by decide⟩ _ 0 {}
    ⟨rfl, fun _ => rfl⟩).1 _ 0 #[] (by simp [Reply.Harmless])

end Execution

end Brainfuck
