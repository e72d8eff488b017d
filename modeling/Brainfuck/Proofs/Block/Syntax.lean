import Brainfuck.Proofs.Bracket.Height

/-! Programs as blocks: single instructions and loops, one after the other. A text is the text of
a block exactly if its brackets balance, and then of one block only, which a scan from the right
finds. -/

namespace Brainfuck

/-- A code point that is no bracket. -/
abbrev PlainPoint := { x : CodePoint // IsPlain (Command.ofCodePoint? x) }

/-- A sequence of single instructions and loops. -/
inductive Block where
  | done
  | single (x : PlainPoint) (rest : Block)
  | loop (body rest : Block)
  deriving DecidableEq

namespace Block

def text : Block → Text
  | done => []
  | single x rest => x.1 :: rest.text
  | loop body rest =>
    Command.loopStart.codePoint :: (body.text ++ Command.loopEnd.codePoint :: rest.text)

def length : Block → Nat
  | done => 0
  | single _ rest => rest.length + 1
  | loop body rest => body.length + rest.length + 2

theorem length_text (b : Block) : b.text.length = b.length := by
  induction b with
  | done => rfl
  | single x rest ih => simp [text, length, ih]
  | loop body rest ihb ihr =>
    simp only [text, length, List.length_cons, List.length_append, ihb, ihr]
    omega

def append : Block → Block → Block
  | done, c => c
  | single x rest, c => single x (rest.append c)
  | loop body rest, c => loop body (rest.append c)

theorem append_done (b : Block) : b.append done = b := by
  induction b with
  | done => rfl
  | single x rest ih => rw [append, ih]
  | loop body rest _ ih => rw [append, ih]

/-! ### Parsing -/

/-- Read a text from its right end: the block it begins with, and the blocks after each loop end
that has no start in it. -/
def scan : Text → Option (Block × List Block)
  | [] => some (done, [])
  | x :: t =>
    match scan t with
    | none => none
    | some (inner, outer) =>
      if hx : IsPlain (Command.ofCodePoint? x) then some (single ⟨x, hx⟩ inner, outer)
      else if Command.ofCodePoint? x = some .loopEnd then some (done, inner :: outer)
      else
        match outer with
        | [] => none
        | rest :: outer => some (loop inner rest, outer)

/-- The block of a text, if its brackets balance. -/
def parse? (code : Text) : Option Block :=
  match scan code with
  | some (b, []) => some b
  | _ => none

/-- The text that a scan has read. -/
def unscan (inner : Block) (outer : List Block) : Text :=
  inner.text ++ outer.flatMap fun b => Command.loopEnd.codePoint :: b.text

variable {t : Text} {x : CodePoint} {inner rest : Block} {outer : List Block}

theorem scan_cons_plain (ht : scan t = some (inner, outer))
    (hx : IsPlain (Command.ofCodePoint? x)) :
    scan (x :: t) = some (single ⟨x, hx⟩ inner, outer) := by
  simp [scan, ht, hx]

theorem scan_cons_loopEnd (ht : scan t = some (inner, outer)) :
    scan (Command.loopEnd.codePoint :: t) = some (done, inner :: outer) := by
  simp [scan, ht, IsPlain]

theorem scan_cons_loopStart (ht : scan t = some (inner, rest :: outer)) :
    scan (Command.loopStart.codePoint :: t) = some (loop inner rest, outer) := by
  simp [scan, ht, IsPlain]

theorem unscan_of_scan (h : scan t = some (inner, outer)) : unscan inner outer = t := by
  induction t generalizing inner outer with
  | nil =>
    simp only [scan, Option.some_inj, Prod.mk.injEq] at h
    obtain ⟨rfl, rfl⟩ := h
    rfl
  | cons x t ih =>
    cases ht : scan t with
    | none => simp [scan, ht] at h
    | some r =>
      obtain ⟨i, o⟩ := r
      have ih := ih ht
      simp only [scan, ht] at h
      split_ifs at h with hx he
      · simp only [Option.some_inj, Prod.mk.injEq] at h
        obtain ⟨rfl, rfl⟩ := h
        rw [← ih]
        rfl
      · simp only [Option.some_inj, Prod.mk.injEq] at h
        obtain ⟨rfl, rfl⟩ := h
        rw [← ih, Command.eq_codePoint_of_ofCodePoint? he]
        rfl
      · have hs : Command.ofCodePoint? x = some .loopStart := by
          by_contra hs
          exact hx ⟨hs, he⟩
        cases o with
        | nil => simp at h
        | cons r o =>
          simp only [Option.some_inj, Prod.mk.injEq] at h
          obtain ⟨rfl, rfl⟩ := h
          rw [← ih, Command.eq_codePoint_of_ofCodePoint? hs]
          simp [unscan, text]

theorem scan_append (b : Block) (h : scan t = some (inner, outer)) :
    scan (b.text ++ t) = some (b.append inner, outer) := by
  induction b generalizing t inner outer with
  | done => exact h
  | single x rest ih => exact scan_cons_plain (ih h) x.2
  | loop body rest ihb ihr =>
    have h₁ := scan_cons_loopEnd (ihr h)
    have h₂ := scan_cons_loopStart (ihb h₁)
    rw [append_done] at h₂
    simpa only [text, List.cons_append, List.append_assoc, append] using h₂

theorem parse?_text (b : Block) : parse? b.text = some b := by
  have h := scan_append b (t := []) rfl
  rw [List.append_nil, append_done] at h
  rw [parse?, h]

/-- A text is read as the one block that has this text. -/
theorem parse?_eq_some {code : Text} {b : Block} : parse? code = some b ↔ b.text = code := by
  constructor
  · intro h
    rw [parse?] at h
    split at h
    case h_1 b' hs =>
      obtain rfl := Option.some_inj.mp h
      have hu := unscan_of_scan hs
      simpa [unscan] using hu
    case h_2 => simp at h
  · rintro rfl
    exact parse?_text b

/-! ### Balance -/

/-- A scan succeeds where no end part has more loop starts than ends. -/
theorem exists_scan {t : Text} (h : ∀ s : Text, s <:+ t → s.startCount ≤ s.endCount) :
    ∃ inner outer, scan t = some (inner, outer) ∧ outer.length + t.startCount = t.endCount := by
  induction t with
  | nil => exact ⟨done, [], rfl, rfl⟩
  | cons x t ih =>
    obtain ⟨inner, outer, hs, hl⟩ := ih fun s hs => h s (hs.trans (List.suffix_cons x t))
    have hx := h (x :: t) List.suffix_rfl
    by_cases hp : IsPlain (Command.ofCodePoint? x)
    · refine ⟨_, _, scan_cons_plain hs hp, ?_⟩
      have h₁ : x ≠ Command.loopStart.codePoint := fun hx => hp.1 (by rw [hx]; simp)
      have h₂ : x ≠ Command.loopEnd.codePoint := fun hx => hp.2 (by rw [hx]; simp)
      simpa [Text.startCount, Text.endCount, List.count_cons_of_ne h₁, List.count_cons_of_ne h₂]
        using hl
    · by_cases he : Command.ofCodePoint? x = some .loopEnd
      · obtain rfl := Command.eq_codePoint_of_ofCodePoint? he
        refine ⟨_, _, scan_cons_loopEnd hs, ?_⟩
        have hne : Command.loopEnd.codePoint ≠ Command.loopStart.codePoint := by decide
        simp only [Text.startCount, Text.endCount, List.count_cons_of_ne hne,
          List.count_cons_self, List.length_cons] at hl ⊢
        omega
      · obtain rfl : x = Command.loopStart.codePoint := by
          apply Command.eq_codePoint_of_ofCodePoint?
          by_contra hs
          exact hp ⟨hs, he⟩
        have hne : Command.loopStart.codePoint ≠ Command.loopEnd.codePoint := by decide
        simp only [Text.startCount, Text.endCount, List.count_cons_of_ne hne,
          List.count_cons_self] at hl hx ⊢
        cases outer with
        | nil =>
          simp only [List.length_nil] at hl
          omega
        | cons rest outer =>
          simp only [List.length_cons] at hl
          exact ⟨_, _, scan_cons_loopStart hs, by omega⟩

theorem exists_parse? {code : Text} (h : code.Balanced) : ∃ b, parse? code = some b := by
  have hs : ∀ s : Text, s <:+ code → s.startCount ≤ s.endCount := by
    rintro s ⟨p, rfl⟩
    have hp := h.endCount_le p (List.prefix_append p s)
    have he := h.endCount_eq
    simp only [Text.startCount, Text.endCount, List.count_append] at hp he ⊢
    omega
  obtain ⟨inner, outer, hc, hl⟩ := exists_scan hs
  have he := h.endCount_eq
  obtain rfl : outer = [] := List.eq_nil_of_length_eq_zero (by omega)
  exact ⟨inner, by rw [parse?, hc]⟩

/-! ### Blocks inside a text -/

theorem balanced_text (b : Block) : b.text.Balanced := by
  induction b with
  | done => exact Text.balanced_nil
  | single x rest ih => exact ih.cons_plain x.2
  | loop body rest ihb ihr => exact ihb.loop ihr

/-- The block stands in `code` from position `p` on, and its loops are loops there. -/
def At (code : Text) : Block → Nat → Prop
  | done, _ => True
  | single x rest, p => code[p]? = some x.1 ∧ rest.At code (p + 1)
  | loop body rest, p => code.Encloses p (p + body.length + 1) ∧ body.At code (p + 1) ∧
    rest.At code (p + body.length + 2)

theorem at_append (b : Block) (pre post : Text) :
    b.At (pre ++ b.text ++ post) pre.length := by
  induction b generalizing pre post with
  | done => trivial
  | single x rest ih =>
    refine ⟨by simp [text], ?_⟩
    simpa [text] using ih (pre ++ [x.1]) post
  | loop body rest ihb ihr =>
    have he := body.balanced_text.encloses pre (rest.text ++ post)
    have hb := ihb (pre ++ [Command.loopStart.codePoint])
      (Command.loopEnd.codePoint :: (rest.text ++ post))
    have hr := ihr (pre ++ Command.loopStart.codePoint ::
      (body.text ++ [Command.loopEnd.codePoint])) post
    simp only [List.length_append, List.length_cons, List.length_nil, length_text,
      List.append_assoc, List.cons_append, List.nil_append] at he hb hr
    rw [show pre.length + (body.length + (0 + 1) + 1) = pre.length + body.length + 2 by omega] at hr
    simp only [At, text, List.append_assoc, List.cons_append]
    exact ⟨he, hb, hr⟩

theorem at_text (b : Block) : b.At b.text 0 := by
  simpa using at_append b [] []

end Block

end Brainfuck
