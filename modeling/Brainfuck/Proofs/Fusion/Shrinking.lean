import Brainfuck.Proofs.Fusion.Pass
/-!
# A pass shrinks what it changes

`q.Shrinks p` says that `q` is `p` itself or has fewer instructions, loop
bodies included. It is preserved by everything a pass is made of, putting an
action in front and keeping a loop, and so `pass_shrinks` is an induction
over the program with the run so far as a pending action: fusing two actions
costs one of them, unless the first changes nothing, and then the fused one
is the second (`Action.fuse?_of_isIdle`).
-/

namespace Brainfuck

variable {policies : Policies}

namespace Action

variable {a b c : Action}

/-- An action that changes nothing adds nothing to the one behind it. -/
theorem fuse?_of_isIdle (ha : a.isIdle = true) (h : a.fuse? policies b = some c) : c = b := by
  obtain ⟨tape, cell⟩ := policies
  cases a <;> cases b <;> simp only [fuse?, Option.map_eq_some_iff, reduceCtorEq] at h
  case move.move x y =>
    obtain ⟨z, hz, rfl⟩ := h
    obtain rfl : x = 0 := by simpa [isIdle] using ha
    rw [(fuseMoves?_eq_some hz).1, Int.zero_add]
  case add.add d e =>
    obtain ⟨f, hf, rfl⟩ := h
    obtain rfl : d = 0 := by simpa [isIdle] using ha
    rw [(fuseAdds?_eq_some hf).1, UInt8.zero_add]

end Action

namespace Program

/-! ## The relation -/

/-- The same program, or one with fewer instructions. -/
def Shrinks (q p : Program) : Prop := q = p ∨ q.size < p.size

namespace Shrinks

variable {p q r : Program}

theorem refl (p : Program) : Shrinks p p := Or.inl rfl

theorem size_le (h : q.Shrinks p) : q.size ≤ p.size := by
  rcases h with rfl | h
  · exact Nat.le_refl _
  · exact Nat.le_of_lt h

/-- Where nothing is lost nothing is changed. -/
theorem size_eq_iff (h : q.Shrinks p) : q.size = p.size ↔ q = p := by
  constructor
  · intro hs
    rcases h with rfl | h
    · rfl
    · omega
  · rintro rfl
    rfl

theorem trans (h : r.Shrinks q) (h' : q.Shrinks p) : r.Shrinks p := by
  rcases h with rfl | h
  · exact h'
  · exact Or.inr (Nat.lt_of_lt_of_le h h'.size_le)

/-- An action in front changes nothing about it. -/
theorem keep (h : q.Shrinks p) (a : Action) : (keep a q).Shrinks (keep a p) := by
  cases hi : a.isIdle with
  | true =>
    rw [keep_of_isIdle hi, keep_of_isIdle hi]
    exact h
  | false =>
    rw [keep_of_not_isIdle hi, keep_of_not_isIdle hi]
    rcases h with rfl | h
    · exact refl _
    · exact Or.inr (Nat.succ_lt_succ h)

/-- An action that changes nothing is an instruction less. -/
theorem keep_act (a : Action) (p : Program) : (Program.keep a p).Shrinks (act a p) := by
  cases hi : a.isIdle with
  | true =>
    rw [keep_of_isIdle hi]
    exact Or.inr (Nat.lt_succ_self _)
  | false =>
    rw [keep_of_not_isIdle hi]
    exact refl _

/-- A loop shrinks with its body and with what comes after it, and is an
instruction less where it is left out. -/
theorem keepLoop {b b' r' : Program} (hb : b'.Shrinks b) (hr : r'.Shrinks r) :
    (keepLoop b' r').Shrinks (loop b r) := by
  have hbs := hb.size_le
  have hrs := hr.size_le
  by_cases hn : b' = nil
  · rw [hn, keepLoop_nil]
    refine Or.inr ?_
    rw [size]
    omega
  rw [keepLoop_of_ne_nil hn]
  rcases hb with rfl | hb
  · rcases hr with rfl | hr
    · exact refl _
    · refine Or.inr ?_
      rw [size, size]
      omega
  · refine Or.inr ?_
    rw [size, size]
    omega

end Shrinks

/-! ## Passes -/

/-- Two actions that fuse are an instruction less, or the first of them was
none. -/
theorem shrinks_of_fuse? {a b c : Action} (h : a.fuse? policies b = some c) (r : Program) :
    (keep c r).Shrinks (keep a (act b r)) := by
  cases hi : a.isIdle with
  | true =>
    rw [Action.fuse?_of_isIdle hi h, keep_of_isIdle hi]
    exact .keep_act b r
  | false =>
    have hc := (Shrinks.keep_act c r).size_le
    rw [keep_of_not_isIdle hi]
    refine Or.inr ?_
    rw [size, size]
    rw [size] at hc
    omega

/-- **What comes of a run and the rest behind it shrinks**: the induction is
on the rest, for every action that the run so far is fused into. -/
theorem fuseFrom_shrinks (p : Program) : ∀ a : Action,
    (fuseFrom policies a p).Shrinks (keep a p) := by
  induction p with
  | nil =>
    intro a
    exact .refl _
  | act b r ih =>
    intro a
    cases hf : a.fuse? policies b with
    | some c =>
      rw [fuseFrom_of_fuse? hf]
      exact (ih c).trans (shrinks_of_fuse? hf r)
    | none =>
      rw [fuseFrom_of_not_fuse? hf]
      exact ((ih b).trans (.keep_act b r)).keep a
  | loop b r ihb ih =>
    intro a
    rw [fuseFrom_loop]
    exact (Shrinks.keepLoop (ihb (.move 0)) (ih (.move 0))).keep a

/-- **A pass changes nothing, or leaves fewer instructions.** -/
theorem pass_shrinks (p : Program) : (p.pass policies).Shrinks p :=
  fuseFrom_shrinks p (.move 0)

end Program

end Brainfuck
