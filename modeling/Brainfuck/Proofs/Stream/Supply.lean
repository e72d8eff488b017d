import Mathlib.Data.List.GetD
import Brainfuck.Machine.Step

/-! What an input supplies. Reads of one element each deliver a byte or find the end of input, and
the cell becomes that byte or zero; so for a program an input is a sequence of bytes that goes on
with zeros for ever. Streams in memory, closed ones and scripted ones may supply the same bytes. -/

namespace Brainfuck

/-- Positions of a list that hold a certain element are as many as such elements. -/
theorem countP_range_any {α : Type} (l : List α) (p : α → Bool) (n : Nat) :
    (List.range n).countP (fun j => l[j]?.any p) = (l.take n).countP p := by
  induction n with
  | zero => rfl
  | succ n ih =>
    rw [List.range_succ, List.countP_append, ih, List.take_add_one, List.countP_append]
    congr 1
    cases h : l[n]? <;> simp [h]

namespace Input

/-- The input after a number of reads of one element. -/
def after (i : Input) : Nat → Input
  | 0 => i
  | n + 1 => ((i.after n).read 1).2

/-- The byte that the next read delivers to a cell, if there is one. -/
def offered (i : Input) : Option UInt8 := (i.read 1).1.byte?.toOption.join

/-- Reads are never refused, and set the cell to one value of `f` after the other. -/
def Supplies (i : Input) (f : Nat → UInt8) : Prop :=
  ∀ j, ∃ b?, ((i.after j).read 1).1.byte? = .ok b? ∧ b?.getD 0 = f j

variable {i rest : Input} {reply : Reply} {b? : Option UInt8} {f : Nat → UInt8}

theorem offered_of_read (h : i.read 1 = (reply, rest)) (hb : reply.byte? = .ok b?) :
    i.offered = b? := by
  rw [offered, h, hb]
  rfl

theorem after_read (i : Input) (j : Nat) : (i.read 1).2.after j = i.after (j + 1) := by
  induction j with
  | zero => rfl
  | succ j ih => rw [after, ih, after.eq_2 i (j + 1)]

theorem Supplies.tail (h : i.Supplies f) : (i.read 1).2.Supplies (fun j => f (j + 1)) := by
  intro j
  rw [after_read]
  exact h (j + 1)

/-! ### Bytes in memory -/

theorem after_memory (bytes : List UInt8) (j : Nat) :
    (Input.memory (.bytes bytes)).after j = .memory (.bytes (bytes.drop j)) := by
  induction j with
  | zero => rfl
  | succ j ih =>
    rw [after, ih]
    simp [read, Source.drop, show Offset.isWide 1 = false from rfl]

theorem byte?_read_memory (bytes : List UInt8) :
    ((Input.memory (.bytes bytes)).read 1).1.byte? = .ok bytes.head? := by
  cases bytes <;> rfl

theorem byte?_read_after_memory (bytes : List UInt8) (j : Nat) :
    (((Input.memory (.bytes bytes)).after j).read 1).1.byte? = .ok bytes[j]? := by
  rw [after_memory, byte?_read_memory, List.head?_drop]

theorem offered_after_memory (bytes : List UInt8) (j : Nat) :
    ((Input.memory (.bytes bytes)).after j).offered = bytes[j]? := by
  rw [offered, byte?_read_after_memory]
  rfl

theorem supplies_memory (bytes : List UInt8) :
    (Input.memory (.bytes bytes)).Supplies (fun j => bytes.getD j 0) := by
  intro j
  exact ⟨_, byte?_read_after_memory bytes j, (List.getD_eq_getElem?_getD ..).symm⟩

/-- Zeros at the end are what there is anyhow. -/
theorem supplies_memory_append_zeros (bytes : List UInt8) (m : Nat) :
    (Input.memory (.bytes (bytes ++ List.replicate m 0))).Supplies (fun j => bytes.getD j 0) := by
  have hzeros : (fun j => (bytes ++ List.replicate m 0).getD j 0) = fun j => bytes.getD j 0 := by
    funext j
    rcases Nat.lt_or_ge j bytes.length with hj | hj
    · rw [List.getD_append _ _ _ _ hj]
    · rw [List.getD_append_right _ _ _ _ hj, List.getD_eq_default _ _ hj,
        List.getD_eq_getElem?_getD, List.getElem?_getD_replicate_default_eq]
  exact hzeros ▸ supplies_memory (bytes ++ List.replicate m 0)

/-! ### Closed streams -/

theorem after_closed (textual : Bool) (j : Nat) :
    (Input.closed textual).after j = .closed textual := by
  induction j with
  | zero => rfl
  | succ j ih =>
    rw [after, ih]
    rfl

theorem supplies_closed (textual : Bool) : (Input.closed textual).Supplies (fun _ => 0) := by
  intro j
  rw [after_closed]
  exact ⟨none, rfl, rfl⟩

end Input

/-! ### Scripts -/

namespace Reply

/-- A reply that ends no run: any bytes, at most one character, nothing, or a failure of the device,
of the pipe or of a stream that refuses. -/
def Harmless : Reply → Prop
  | .data (.bytes _) => True
  | .data (.text t) => t.length ≤ 1
  | .nothing => True
  | .fault f => f.kind = .device ∨ f.kind = .brokenPipe ∨ f.kind = .refused

def hasData : Reply → Bool
  | .data s => ! s.isEmpty
  | _ => false

/-- The byte that a reply stands for: the first of its bytes, or its character modulo 256, and zero
if it has no data. -/
def toByte : Reply → UInt8
  | .data (.bytes (b :: _)) => b
  | .data (.text (x :: _)) => .ofNat (x.value % 256)
  | _ => 0

theorem Harmless.byte?_eq {r : Reply} (h : r.Harmless) :
    r.byte? = .ok (if r.hasData then some r.toByte else none) := by
  cases r with
  | nothing => rfl
  | fault f =>
    have hf : f.isEndOfInput = true := by
      rcases h with h | h | h <;> simp [Fault.isEndOfInput, h]
    simp [byte?, hf, hasData]
  | data s =>
    cases s with
    | bytes bs => cases bs <;> simp [byte?, hasData, Source.isEmpty, Source.length, toByte]
    | text t =>
      cases t with
      | nil => rfl
      | cons x t =>
        obtain rfl : t = [] := by simpa [Harmless] using h
        have hx : UInt8.ofNat x.value = UInt8.ofNat (x.value % 256) := by
          apply UInt8.toNat_inj.mp
          simp
        simp [byte?, hasData, Source.isEmpty, Source.length, toByte, hx]

theorem toByte_of_not_hasData {r : Reply} (h : r.hasData = false) : r.toByte = 0 := by
  cases r with
  | nothing => rfl
  | fault f => rfl
  | data s =>
    cases s with
    | bytes bs => cases bs <;> simp_all [hasData, Source.isEmpty, Source.length, toByte]
    | text t => cases t <;> simp_all [hasData, Source.isEmpty, Source.length, toByte]

end Reply

namespace Input

variable (replies : List Reply) (used : Nat) (requests : Array Nat)

/-- Every read asks for one element and uses up one reply, as long as there are any. -/
theorem after_scripted (j : Nat) :
    (Input.scripted replies used requests).after j =
      .scripted (replies.drop j) (used + min j replies.length)
        (requests ++ Array.replicate j 1) := by
  induction j generalizing replies used requests with
  | zero => simp [after]
  | succ j ih =>
    have hpush :
        requests.push 1 ++ Array.replicate j 1 = requests ++ Array.replicate (j + 1) 1 := by
      apply Array.toList_inj.mp
      simp [List.replicate_succ]
    rw [← after_read]
    cases replies with
    | nil => simp [read, ih, hpush]
    | cons r replies =>
      rw [read, ih, hpush, List.drop_succ_cons, List.length_cons, Nat.succ_min_succ]
      congr 1
      omega

theorem read_after_scripted (j : Nat) :
    (((Input.scripted replies used requests).after j).read 1).1 =
      replies[j]?.getD (.data (.bytes [])) := by
  rw [after_scripted, ← List.head?_drop]
  cases replies.drop j <;> rfl

variable {replies}

theorem byte?_read_after_scripted (h : ∀ r ∈ replies, r.Harmless) (j : Nat) :
    (((Input.scripted replies used requests).after j).read 1).1.byte? =
      .ok (if replies[j]?.any Reply.hasData then some ((replies.map Reply.toByte).getD j 0)
        else none) := by
  rw [read_after_scripted]
  cases hr : replies[j]? with
  | none => rfl
  | some r =>
    rw [Option.getD_some, (h r (List.mem_of_getElem? hr)).byte?_eq]
    simp [hr]

theorem supplies_scripted (h : ∀ r ∈ replies, r.Harmless) :
    (Input.scripted replies used requests).Supplies
      (fun j => (replies.map Reply.toByte).getD j 0) := by
  intro j
  refine ⟨_, byte?_read_after_scripted used requests h j, ?_⟩
  cases hr : replies[j]? with
  | none => simp [hr]
  | some r =>
    by_cases hd : r.hasData
    · simp [hd]
    · simp [hr, hd, Reply.toByte_of_not_hasData (Bool.not_eq_true _ ▸ hd)]

theorem isSome_offered_after_scripted (h : ∀ r ∈ replies, r.Harmless) (j : Nat) :
    ((Input.scripted replies used requests).after j).offered.isSome =
      replies[j]?.any Reply.hasData := by
  rw [offered, byte?_read_after_scripted used requests h j]
  by_cases hd : replies[j]?.any Reply.hasData <;> simp [hd, Except.toOption]

end Input

end Brainfuck
