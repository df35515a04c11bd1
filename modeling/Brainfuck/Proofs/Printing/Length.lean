import Brainfuck.Proofs.Fusion.Pass
/-!
# Optimized programs are not printed longer

A fused action is printed with no more commands than the two that it is
fused from (`length_symbols_fuse?`). For adds that is a triangle inequality
modulo 256: of all amounts that change a cell alike the signed one is the
shortest (`natAbs_signed_le`), so a sum of two bytes is no longer than the
two signed amounts together, on whichever side of 128 it lies. From there it
goes up the pass, where whatever is left out is printed with nothing.
-/

namespace Brainfuck

variable {policies : Policies}

/-! ## Signed amounts -/

/-- **The signed amount is the shortest** of all that change a cell alike. -/
theorem natAbs_signed_le {d : UInt8} {n : Int} (h : n % 256 = signed d % 256) :
    (signed d).natAbs ≤ n.natAbs := by
  have hbounds := signed_bounds d
  omega

theorem natAbs_signed_add_le (d e : UInt8) :
    (signed (d + e)).natAbs ≤ (signed d).natAbs + (signed e).natAbs :=
  calc (signed (d + e)).natAbs
    _ ≤ (signed d + signed e).natAbs := natAbs_signed_le (signed_add_emod d e).symm
    _ ≤ (signed d).natAbs + (signed e).natAbs := Int.natAbs_add_le _ _

/-! ## What is printed of an action -/

namespace Action

theorem length_symbols_move (n : Int) : (move n).symbols.length = n.natAbs := by
  rw [symbols]
  split <;> rw [List.length_replicate]

theorem length_symbols_add (d : UInt8) : (add d).symbols.length = (signed d).natAbs := by
  rw [symbols]
  split <;> rw [List.length_replicate]

/-- **What two actions are fused into is printed no longer than the two.** -/
theorem length_symbols_fuse? {a b c : Action} (h : a.fuse? policies b = some c) :
    c.symbols.length ≤ a.symbols.length + b.symbols.length := by
  cases a <;> cases b <;> simp only [fuse?, Option.map_eq_some_iff, reduceCtorEq] at h
  case move.move x y =>
    obtain ⟨z, hz, rfl⟩ := h
    obtain ⟨rfl, -⟩ := fuseMoves?_eq_some hz
    rw [length_symbols_move, length_symbols_move, length_symbols_move]
    exact Int.natAbs_add_le x y
  case add.add d e =>
    obtain ⟨f, hf, rfl⟩ := h
    obtain ⟨rfl, -⟩ := fuseAdds?_eq_some hf
    rw [length_symbols_add, length_symbols_add, length_symbols_add]
    exact natAbs_signed_add_le d e

end Action

namespace Program

/-! ## What is printed of a program -/

theorem length_symbols_act (a : Action) (r : Program) :
    (act a r).symbols.length = a.symbols.length + r.symbols.length := List.length_append

theorem length_symbols_loop (b r : Program) :
    (loop b r).symbols.length = b.symbols.length + r.symbols.length + 2 := by
  simp only [symbols, List.cons_append, List.length_cons, List.length_append]
  omega

theorem length_symbols_keep_le (a : Action) (p : Program) :
    (keep a p).symbols.length ≤ a.symbols.length + p.symbols.length := by
  rw [keep]
  split
  · exact Nat.le_add_left ..
  · exact Nat.le_of_eq (length_symbols_act a p)

theorem length_symbols_keepLoop_le (b p : Program) :
    (keepLoop b p).symbols.length ≤ b.symbols.length + p.symbols.length + 2 := by
  by_cases h : b = nil
  · rw [h, keepLoop_nil]
    omega
  · rw [keepLoop_of_ne_nil h]
    exact Nat.le_of_eq (length_symbols_loop b p)

/-- **A pass prints no longer**, whatever action the run so far has been
fused into. The induction is on what is left of the program. -/
theorem length_symbols_fuseFrom_le (a : Action) (p : Program) :
    (fuseFrom policies a p).symbols.length ≤ a.symbols.length + p.symbols.length := by
  induction p generalizing a with
  | nil => exact length_symbols_keep_le a nil
  | act b r ih =>
    rw [length_symbols_act]
    cases hf : a.fuse? policies b with
    | some c =>
      have hc := Action.length_symbols_fuse? hf
      have hr := ih c
      rw [fuseFrom_of_fuse? hf]
      omega
    | none =>
      have ha := length_symbols_keep_le a (fuseFrom policies b r)
      have hr := ih b
      rw [fuseFrom_of_not_fuse? hf]
      omega
  | loop b r ihb ih =>
    have hzero : (Action.move 0).symbols.length = 0 := rfl
    have ha := length_symbols_keep_le a (keepLoop (b.pass policies) (r.pass policies))
    have hloop := length_symbols_keepLoop_le (b.pass policies) (r.pass policies)
    have hb : (b.pass policies).symbols.length ≤ _ := ihb (.move 0)
    have hr : (r.pass policies).symbols.length ≤ _ := ih (.move 0)
    rw [fuseFrom_loop, length_symbols_loop]
    omega

theorem length_symbols_pass_le (p : Program) :
    (p.pass policies).symbols.length ≤ p.symbols.length := by
  have h : (p.pass policies).symbols.length ≤ 0 + p.symbols.length :=
    length_symbols_fuseFrom_le (.move 0) p
  rwa [Nat.zero_add] at h

theorem length_text (p : Program) : p.text.length = p.symbols.length := by
  rw [text_eq, Symbol.text, String.length_ofList, List.length_map]

/-- **Optimizing never makes the printed source longer**, whatever the
machine is known to do at its bounds and however many passes there are. -/
theorem length_text_optimize_le (policies : Policies) (budget : Budget) (p : Program) :
    (p.optimize policies budget).text.length ≤ p.text.length := by
  rw [length_text, length_text]
  have hpass (q : Program) (hq : q.symbols.length ≤ p.symbols.length) :
      (q.pass policies).symbols.length ≤ p.symbols.length :=
    Nat.le_trans (length_symbols_pass_le q) hq
  exact optimize_induction (motive := fun q => q.symbols.length ≤ p.symbols.length) hpass budget
    (Nat.le_refl _)

/-- Twice 100 up is 56 down where a cell wraps. -/
example : ((act (.add 100) (act (.add 100) nil)).pass ⟨.wrap, .wrap⟩).symbols =
    .replicate 56 .decrement := by decide

end Program

end Brainfuck
