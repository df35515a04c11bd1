import Brainfuck.Proofs.Tape.Settle
/-!
# What the operations of a tape do

Every operation either fails, for one reason that can be told beforehand,
and leaves the tape as it was, or it is carried out and changes what it has
to and nothing else. `Operation.Fails` is the reason and
`Operation.Leaves` the change, both in terms of integers without bounds:
a shift or an amount may be larger than the tape or a cell, and negative.

`perform_cases` is the step lemma. From it, whatever operations a new tape
goes through, some of them failing, it keeps its size, its cursor stays on
it, and the next operation fails or not by the same rule:
`operations_exact`.
-/

namespace Brainfuck

/-- What excludes a clamping bound leaves wrapping, or the opposite of what
is excluded with it. -/
theorem Overflow.eq_wrap_or_of_not {policy : Overflow} {p q : Prop}
    (h : ¬ (policy = .clamp ∧ p)) (hq : ¬ p → q) : policy = .wrap ∨ q := by
  cases policy with
  | wrap => exact Or.inl rfl
  | clamp => exact Or.inr (hq fun hp => h ⟨rfl, hp⟩)

namespace Tape

variable {policies : Policies} {policy : Overflow}

/-! ## Moves -/

theorem moveRight_eq {shift : Int} (h : 0 ≤ shift) (t : Tape) :
    moveRight policy shift t = .ok () (t.moved policy shift) := by
  obtain ⟨cells, cursor, hc⟩ := t
  simp only [moveRight, if_pos h, moved, size, Overflow.right_eq hc h]

theorem moveRight_of_neg {shift : Int} (h : shift < 0) (t : Tape) :
    moveRight policy shift t = .error (.negativeShift shift) t := by
  obtain ⟨cells, cursor, hc⟩ := t
  simp only [moveRight, if_neg (Int.not_le.2 h)]

theorem moveLeft_eq {shift : Int} (h : 0 ≤ shift) (t : Tape) :
    moveLeft policy shift t = .ok () (t.moved policy (-shift)) := by
  obtain ⟨cells, cursor, hc⟩ := t
  simp only [moveLeft, dif_pos h, moved, size, Overflow.left_eq hc h, Int.sub_eq_add_neg]

theorem moveLeft_of_neg {shift : Int} (h : shift < 0) (t : Tape) :
    moveLeft policy shift t = .error (.negativeShift shift) t := by
  obtain ⟨cells, cursor, hc⟩ := t
  simp only [moveLeft, dif_neg (Int.not_le.2 h)]

/-- The cursor after a move, as an integer: nothing is cut off. -/
theorem cursor_moved_eq (policy : Overflow) (shift : Int) (t : Tape) :
    ((t.moved policy shift).cursor : Int) = policy.settle t.size (t.cursor + shift) := by
  have hs : (0 : Int) < t.size := by exact_mod_cast t.size_pos
  have := policy.settle_nonneg hs (t.cursor + shift)
  rw [cursor_moved]
  omega

/-! ## Changes of the current cell -/

/-- An integer that settles is stored. -/
theorem store_settle (value : Int) (t : Tape) :
    store (policy.settle 256 value) t = .ok () (t.settled policy value) := by
  obtain ⟨h₀, h₁⟩ := policy.settle_byte value
  rw [store, if_pos ⟨h₀, by rw [cellMax]; omega⟩, settled]

theorem add_eq {amount : Int} (t : Tape)
    (h : policy = .wrap ∨ 0 ≤ (t.current.toNat : Int) + amount) :
    add policy amount t = .ok () (t.settled policy (t.current.toNat + amount)) := by
  rw [add, Overflow.sum_eq h, store_settle]

theorem add_of_neg {amount : Int} (t : Tape) (h : (t.current.toNat : Int) + amount < 0) :
    add .clamp amount t = .error .cellOverflow t := by
  have hs : ¬ (0 ≤ Overflow.clamp.sum t.current.toNat amount ∧
      Overflow.clamp.sum t.current.toNat amount ≤ cellMax) := by
    simp only [Overflow.sum, cellMax]
    omega
  rw [add, store, if_neg hs]

theorem subtract_eq {amount : Int} (t : Tape)
    (h : policy = .wrap ∨ (t.current.toNat : Int) - amount ≤ 255) :
    subtract policy amount t = .ok () (t.settled policy (t.current.toNat - amount)) := by
  rw [subtract, Overflow.difference_eq h, store_settle]

theorem subtract_of_gt {amount : Int} (t : Tape) (h : 255 < (t.current.toNat : Int) - amount) :
    subtract .clamp amount t = .error .cellOverflow t := by
  have hs : ¬ (0 ≤ Overflow.clamp.difference t.current.toNat amount ∧
      Overflow.clamp.difference t.current.toNat amount ≤ cellMax) := by
    simp only [Overflow.difference, cellMax]
    omega
  rw [subtract, store, if_neg hs]

/-! ## Characters -/

theorem current_readChar (c : Char) (t : Tape) :
    (t.readChar c).current.toNat = c.toNat % 256 := by
  rw [readChar, current_put, cellOfChar, UInt8.toNat_ofNat']
  omega

theorem readText_eq {s : String} {c : Char} (h : s.toList = [c]) (t : Tape) :
    readText s t = .ok () (t.readChar c) := by
  simp only [readText, h]

theorem readText_of_length_ne_one {s : String} (h : s.length ≠ 1) (t : Tape) :
    readText s t = .error .notOneCharacter t := by
  unfold readText
  split
  · rename_i c hc
    exact absurd (congrArg List.length hc) h
  · rfl

/-! ## Operations -/

theorem getElem?_cursor (t : Tape) : t.cells[t.cursor]? = some t.current := by
  obtain ⟨cells, cursor, hc⟩ := t
  exact Array.getElem?_eq_getElem hc

/-- Two tapes differ in the cell under the cursor at most. -/
structure OnlyCurrent (t t' : Tape) : Prop where
  size : t'.size = t.size
  cursor : t'.cursor = t.cursor
  others : ∀ i, i ≠ t.cursor → t'.cells[i]? = t.cells[i]?

theorem onlyCurrent_put (v : UInt8) (t : Tape) : OnlyCurrent t (t.put v) where
  size := size_put v t
  cursor := cursor_put v t
  others := by
    intro i hi
    obtain ⟨cells, cursor, hc⟩ := t
    exact Array.getElem?_set_ne hc (Ne.symm hi)

namespace Operation

/-- Why an operation fails on a tape. -/
def Fails (policies : Policies) (t : Tape) : Operation → Fault → Prop
  | .moveLeft n, f => n < 0 ∧ f = .negativeShift n
  | .moveRight n, f => n < 0 ∧ f = .negativeShift n
  | .add v, f =>
    (policies.cell = .clamp ∧ (t.current.toNat : Int) + v < 0) ∧ f = .cellOverflow
  | .subtract v, f =>
    (policies.cell = .clamp ∧ 255 < (t.current.toNat : Int) - v) ∧ f = .cellOverflow
  | .readText s, f => s.length ≠ 1 ∧ f = .notOneCharacter
  | .writeChar, _ => False
  | .isNonzero, _ => False
  | .reset, _ => False

/-- What an operation that is carried out makes of a tape. -/
def Leaves (policies : Policies) (t t' : Tape) : Operation → Prop
  | .moveLeft n =>
    t'.cells = t.cells ∧ (t'.cursor : Int) = policies.tape.settle t.size (t.cursor - n)
  | .moveRight n =>
    t'.cells = t.cells ∧ (t'.cursor : Int) = policies.tape.settle t.size (t.cursor + n)
  | .add v =>
    t.OnlyCurrent t' ∧
      (t'.current.toNat : Int) = policies.cell.settle 256 (t.current.toNat + v)
  | .subtract v =>
    t.OnlyCurrent t' ∧
      (t'.current.toNat : Int) = policies.cell.settle 256 (t.current.toNat - v)
  | .readText s => t.OnlyCurrent t' ∧ ∃ c, s.toList = [c] ∧ t'.current.toNat = c.toNat % 256
  | .writeChar => t' = t
  | .isNonzero => t' = t
  | .reset => t'.cells = Array.replicate t.size 0 ∧ t'.cursor = 0

variable {o : Operation} {t t' : Tape}

/-- Whatever an operation does, the number of cells stays. -/
theorem Leaves.size_eq (h : o.Leaves policies t t') : t'.size = t.size := by
  cases o with
  | moveLeft | moveRight => exact congrArg Array.size h.1
  | add | subtract | readText => exact h.1.size
  | writeChar | isNonzero => exact congrArg Tape.size h
  | reset => simp [Tape.size, h.1]

/-- An operation that answers nothing does what its call on the tape does. -/
theorem run_ok {x : EStateM Fault Tape Unit} (h : x t = .ok () t') :
    (do x; return Answer.nothing : EStateM Fault Tape Answer) t = .ok .nothing t' := by
  simp only [bind, EStateM.bind, h]
  rfl

theorem run_error {x : EStateM Fault Tape Unit} {f : Fault} (h : x t = .error f t') :
    (do x; return Answer.nothing : EStateM Fault Tape Answer) t = .error f t' := by
  simp only [bind, EStateM.bind, h]

/-- **What an operation does**: it fails with the tape as it was, or it is
carried out, and never both. -/
theorem perform_cases (policies : Policies) (o : Operation) (t : Tape) :
    (∃ f, o.perform policies t = .error f t ∧ ∀ g, o.Fails policies t g ↔ g = f) ∨
      ∃ a t', o.perform policies t = .ok a t' ∧ o.Leaves policies t t' ∧
        ∀ g, ¬ o.Fails policies t g := by
  cases o with
  | moveLeft n =>
    by_cases hn : n < 0
    · exact Or.inl ⟨_, run_error (moveLeft_of_neg hn t), fun g => and_iff_right hn⟩
    · have h₀ : 0 ≤ n := Int.not_lt.1 hn
      refine Or.inr ⟨_, _, run_ok (moveLeft_eq h₀ t), ⟨rfl, ?_⟩, fun g hg => hn hg.1⟩
      rw [cursor_moved_eq]
      rfl
  | moveRight n =>
    by_cases hn : n < 0
    · exact Or.inl ⟨_, run_error (moveRight_of_neg hn t), fun g => and_iff_right hn⟩
    · have h₀ : 0 ≤ n := Int.not_lt.1 hn
      exact Or.inr ⟨_, _, run_ok (moveRight_eq h₀ t), ⟨rfl, cursor_moved_eq _ _ _⟩,
        fun g hg => hn hg.1⟩
  | add v =>
    by_cases hv : policies.cell = .clamp ∧ (t.current.toNat : Int) + v < 0
    · obtain ⟨tape, cell⟩ := policies
      obtain ⟨rfl, hneg⟩ := hv
      exact Or.inl ⟨_, run_error (add_of_neg t hneg), fun g => and_iff_right ⟨rfl, hneg⟩⟩
    · have hs : policies.cell = .wrap ∨ 0 ≤ (t.current.toNat : Int) + v :=
        Overflow.eq_wrap_or_of_not hv Int.not_lt.1
      exact Or.inr ⟨_, _, run_ok (add_eq t hs), ⟨onlyCurrent_put _ t, current_settled _ _ t⟩,
        fun g hg => hv hg.1⟩
  | subtract v =>
    by_cases hv : policies.cell = .clamp ∧ 255 < (t.current.toNat : Int) - v
    · obtain ⟨tape, cell⟩ := policies
      obtain ⟨rfl, hgt⟩ := hv
      exact Or.inl ⟨_, run_error (subtract_of_gt t hgt), fun g => and_iff_right ⟨rfl, hgt⟩⟩
    · have hs : policies.cell = .wrap ∨ (t.current.toNat : Int) - v ≤ 255 :=
        Overflow.eq_wrap_or_of_not hv Int.not_lt.1
      exact Or.inr ⟨_, _, run_ok (subtract_eq t hs),
        ⟨onlyCurrent_put _ t, current_settled _ _ t⟩, fun g hg => hv hg.1⟩
  | readText s =>
    by_cases hs : s.length = 1
    · obtain ⟨c, hc⟩ : ∃ c, s.toList = [c] := List.length_eq_one_iff.1 hs
      exact Or.inr ⟨_, _, run_ok (readText_eq hc t),
        ⟨onlyCurrent_put _ t, c, hc, current_readChar c t⟩, fun g hg => hg.1 hs⟩
    · exact Or.inl ⟨_, run_error (readText_of_length_ne_one hs t), fun g => and_iff_right hs⟩
  | writeChar => exact Or.inr ⟨_, t, rfl, rfl, fun g => id⟩
  | isNonzero => exact Or.inr ⟨_, t, rfl, rfl, fun g => id⟩
  | reset => exact Or.inr ⟨_, t.reset, rfl, ⟨rfl, rfl⟩, fun g => id⟩

/-- An operation fails exactly for its reasons, and leaves the tape as it
was. -/
theorem perform_eq_error_iff {f : Fault} :
    o.perform policies t = .error f t' ↔ o.Fails policies t f ∧ t' = t := by
  rcases perform_cases policies o t with ⟨g, hp, hf⟩ | ⟨a, u, hp, -, hf⟩
  · rw [hp, hf]
    constructor
    · intro h
      cases h
      exact ⟨rfl, rfl⟩
    · rintro ⟨rfl, rfl⟩
      rfl
  · rw [hp]
    constructor
    · intro h
      cases h
    · rintro ⟨h, -⟩
      exact absurd h (hf f)

theorem leaves_of_perform {a : Answer} (h : o.perform policies t = .ok a t') :
    o.Leaves policies t t' := by
  rcases perform_cases policies o t with ⟨g, hp, -⟩ | ⟨b, u, hp, hl, -⟩
  · rw [hp] at h
    cases h
  · rw [hp] at h
    cases h
    exact hl

/-- The tape after an operation, carried out or failed. -/
def after (policies : Policies) (o : Operation) (t : Tape) : Tape :=
  match o.perform policies t with
  | .ok _ t' => t'
  | .error _ t' => t'

/-- One operation keeps the number of cells, also where it fails. -/
theorem size_after (o : Operation) (t : Tape) : (o.after policies t).size = t.size := by
  unfold after
  split
  · rename_i hp
    exact (leaves_of_perform hp).size_eq
  · rename_i hp
    rw [(perform_eq_error_iff.1 hp).2]

end Operation

/-- The tape after operations in a row. One that fails does not stop the
others. -/
def afterAll (policies : Policies) (ops : List Operation) (t : Tape) : Tape :=
  ops.foldl (fun t o => o.after policies t) t

/-- Any operations in a row keep the number of cells. -/
theorem size_afterAll (ops : List Operation) (t : Tape) :
    (t.afterAll policies ops).size = t.size := by
  induction ops generalizing t with
  | nil => rfl
  | cons o ops ih => exact (ih (o.after policies t)).trans (o.size_after t)

/-- **The bounds of a tape hold after any operations**, and what the next
one does is known. A new tape of any positive size, after any operations
with any amounts, some of which may have failed, has that many cells, all of
them bytes, and its cursor on one of them. The next operation fails exactly
if a shift is negative, a clamped cell would be left by adding below zero or
by subtracting above its largest value, or a text is not one character; the
tape is then as it was. Otherwise a move changes no cell, and settles the
cursor among the cells; an add, a subtract or a read changes the current
cell alone, and settles it among the bytes. -/
theorem operations_exact (policies : Policies) {size : Int} (h : 0 < size) :
    ∃ start, Tape.ofSize size = .ok start ∧ ∀ ops t, t = start.afterAll policies ops →
      (t.cells.size : Int) = size ∧ (∀ v ∈ t.cells, v.toNat ≤ 255) ∧
      (t.cursor : Int) < size ∧
      ∀ o : Operation,
        (∀ f t', o.perform policies t = .error f t' ↔ o.Fails policies t f ∧ t' = t) ∧
        ∀ a t', o.perform policies t = .ok a t' → o.Leaves policies t t' := by
  refine ⟨blank size.toNat (toNat_size_pos h), dif_pos h, ?_⟩
  intro ops t ht
  have hsize : t.size = size.toNat := by rw [ht, size_afterAll, size_blank]
  have hcells : (t.cells.size : Int) = size := by
    change (t.size : Int) = size
    omega
  have hcursor := t.cursor_lt
  refine ⟨hcells, fun v _ => Nat.le_of_lt_succ v.toNat_lt, by omega, fun o => ⟨?_, ?_⟩⟩
  · intro f t'
    exact Operation.perform_eq_error_iff
  · intro a t'
    exact Operation.leaves_of_perform

/-- A clamped cell at 7, reached over a failed add and around the end of
the tape, cannot take 300 more, and the cursor goes on to any distance. -/
theorem operations_exact_threeCells :
    (0 : Int) < 3 ∧ ∃ start, Tape.ofSize 3 = .ok start ∧
      ∃ t, t = start.afterAll ⟨.wrap, .clamp⟩ [.moveLeft 8, .add (-1), .add 7] ∧
        t.cells = #[0, 7, 0] ∧ t.cursor = 1 ∧
        (Operation.subtract (-300)).perform ⟨.wrap, .clamp⟩ t = .error .cellOverflow t ∧
        ∀ a t', (Operation.moveRight 100000000000000000000).perform ⟨.wrap, .clamp⟩ t = .ok a t' →
          t'.cells = #[0, 7, 0] ∧ (t'.cursor : Int) = (1 + 100000000000000000000) % 3 := by
  obtain ⟨start, hs, hops⟩ := operations_exact ⟨.wrap, .clamp⟩ (show (0 : Int) < 3 by decide)
  cases hs
  obtain ⟨-, -, -, ho⟩ :=
    hops [.moveLeft 8, .add (-1), .add 7] ⟨#[0, 7, 0], 1, by decide⟩ rfl
  refine ⟨by decide, _, rfl, ⟨#[0, 7, 0], 1, by decide⟩, rfl, rfl, rfl, ?_, ?_⟩
  · have hfails : (Operation.subtract (-300)).Fails ⟨.wrap, .clamp⟩
        ⟨#[0, 7, 0], 1, by decide⟩ .cellOverflow := ⟨⟨rfl, by decide⟩, rfl⟩
    exact ((ho (.subtract (-300))).1 _ _).2 ⟨hfails, rfl⟩
  · exact (ho (.moveRight 100000000000000000000)).2

end Tape

end Brainfuck
