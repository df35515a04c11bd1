import Brainfuck.Program.Grammar
import Brainfuck.Proofs.Fusion.Pass
/-!
# Optimizing keeps outputs and inputs where they are

The outline of a program is what is left of it without its moves and adds:
outputs, inputs and loops. A pass changes an outline in one way only, it
leaves out loops that hold no output or input, at any depth (`Pruned`). That
is an induction over the program, where the run so far is a pending action
(`pruned_fuseFrom`); the one step with something to it is a loop whose body
comes out empty, and there the induction itself says that the body holds no
output or input.

Pruning keeps the outputs and inputs of a program in their order and at their
depth (`Pruned.exchanges_eq`), and with them the loops that they are in
(`Pruned.withoutEmptyLoops_eq`). It is transitive, so all of this holds of any
number of passes: `optimize_keeps_exchanges`. None of it is about runs: it
holds of instructions that are never reached as well.
-/

namespace Brainfuck.Program

/-! ## Outlines -/

/-- The outputs and inputs of a program in the order of its text, each with
the number of loops around it. There are `depth` of them around the program. -/
def exchanges (depth : Nat) : Program → List (Action × Nat)
  | nil => []
  | act a r => if a.isSilent then exchanges depth r else (a, depth) :: exchanges depth r
  | loop b r => exchanges (depth + 1) b ++ exchanges depth r

/-- A program without its moves and adds. -/
def outline : Program → Program
  | nil => nil
  | act a r => if a.isSilent then outline r else act a (outline r)
  | loop b r => loop (outline b) (outline r)

/-- `q.Pruned p`: the program `q` is `p` without some of its loops, none of
which holds an output or an input. What is left stands as it stood. -/
inductive Pruned : Program → Program → Prop where
  | nil : Pruned .nil .nil
  | act {q p : Program} (a : Action) : Pruned q p → Pruned (.act a q) (.act a p)
  | loop {b' b r' r : Program} : Pruned b' b → Pruned r' r → Pruned (.loop b' r') (.loop b r)
  | leaveOut {b r' r : Program} :
      b.exchanges 0 = [] → Pruned r' r → Pruned r' (.loop b r)

variable {policies : Policies} {a : Action} {p q r : Program}

theorem exchanges_act_of_isSilent (h : a.isSilent = true) (depth : Nat) (r : Program) :
    (act a r).exchanges depth = r.exchanges depth := by
  rw [exchanges, if_pos h]

theorem exchanges_act_of_not_isSilent (h : a.isSilent = false) (depth : Nat) (r : Program) :
    (act a r).exchanges depth = (a, depth) :: r.exchanges depth := by
  rw [exchanges, if_neg (by simp [h])]

theorem exchanges_loop (depth : Nat) (b r : Program) :
    (loop b r).exchanges depth = b.exchanges (depth + 1) ++ r.exchanges depth := rfl

theorem outline_act_of_isSilent (h : a.isSilent = true) (r : Program) :
    (act a r).outline = r.outline := by
  rw [outline, if_pos h]

theorem outline_act_of_not_isSilent (h : a.isSilent = false) (r : Program) :
    (act a r).outline = act a r.outline := by
  rw [outline, if_neg (by simp [h])]

theorem outline_loop (b r : Program) : (loop b r).outline = loop b.outline r.outline := rfl

/-- Whether a program holds an output or an input does not depend on the loops
around it. -/
theorem exchanges_eq_nil {depth : Nat} (h : p.exchanges depth = []) (depth' : Nat) :
    p.exchanges depth' = [] := by
  induction p generalizing depth depth' with
  | nil => rfl
  | act a r ih =>
    cases ha : a.isSilent with
    | true =>
      rw [exchanges_act_of_isSilent ha] at h ⊢
      exact ih h depth'
    | false =>
      rw [exchanges_act_of_not_isSilent ha] at h
      exact absurd h (List.cons_ne_nil _ _)
  | loop b r ihb ih =>
    rw [exchanges_loop, List.append_eq_nil_iff] at h
    rw [exchanges_loop, ihb h.1, ih h.2, List.append_nil]

/-- Moves and adds are no outputs or inputs. -/
theorem exchanges_outline (depth : Nat) (p : Program) :
    p.outline.exchanges depth = p.exchanges depth := by
  induction p generalizing depth with
  | nil => rfl
  | act a r ih =>
    cases ha : a.isSilent with
    | true => rw [outline_act_of_isSilent ha, exchanges_act_of_isSilent ha, ih]
    | false =>
      rw [outline_act_of_not_isSilent ha, exchanges_act_of_not_isSilent ha,
        exchanges_act_of_not_isSilent ha, ih]
  | loop b r ihb ih => rw [outline_loop, exchanges_loop, exchanges_loop, ihb, ih]

/-- An action that changes nothing is none of the outline. -/
theorem outline_keep (a : Action) (p : Program) : (keep a p).outline = (act a p).outline := by
  cases ha : a.isSilent with
  | true =>
    rw [outline_act_of_isSilent ha, keep]
    split
    · rfl
    · exact outline_act_of_isSilent ha p
  | false => rw [keep_of_not_isSilent ha]

/-! ## Pruning -/

namespace Pruned

theorem refl (p : Program) : p.Pruned p := by
  induction p with
  | nil => exact .nil
  | act a r ih => exact .act a ih
  | loop b r ihb ih => exact .loop ihb ih

/-- **Pruning keeps the outputs and inputs**, in their order and at their
depth. -/
theorem exchanges_eq (h : q.Pruned p) (depth : Nat) : q.exchanges depth = p.exchanges depth := by
  induction h generalizing depth with
  | nil => rfl
  | act a _ ih => rw [exchanges, exchanges, ih]
  | loop _ _ ihb ih => rw [exchanges_loop, exchanges_loop, ihb, ih]
  | leaveOut hb _ ih => rw [exchanges_loop, exchanges_eq_nil hb, List.nil_append, ih]

theorem trans (h : r.Pruned q) (h' : q.Pruned p) : r.Pruned p := by
  induction h' generalizing r with
  | nil => exact h
  | act a _ ih =>
    cases h with
    | act _ hr => exact .act a (ih hr)
  | loop hb _ ihb ih =>
    cases h with
    | loop hb' hr => exact .loop (ihb hb') (ih hr)
    | leaveOut hn hr =>
      -- what the body of the loop holds has been kept so far
      exact .leaveOut ((hb.exchanges_eq 0).symm.trans hn) (ih hr)
  | leaveOut hn _ ih => exact .leaveOut hn (ih h)

end Pruned

/-! ## The loops that hold outputs and inputs -/

/-- The outputs and inputs of a program and the loops that hold them, at any
depth: an outline without the loops around nothing. -/
def exchangeTree (p : Program) : Program := p.outline.withoutEmptyLoops

theorem exchangeTree_act_of_isSilent (h : a.isSilent = true) (r : Program) :
    (act a r).exchangeTree = r.exchangeTree := by
  rw [exchangeTree, outline_act_of_isSilent h, exchangeTree]

theorem exchangeTree_act_of_not_isSilent (h : a.isSilent = false) (r : Program) :
    (act a r).exchangeTree = act a r.exchangeTree := by
  rw [exchangeTree, outline_act_of_not_isSilent h]
  rfl

theorem exchangeTree_loop (b r : Program) :
    (loop b r).exchangeTree = keepLoop b.exchangeTree r.exchangeTree := rfl

/-- What holds no output or input has no such loop either. -/
theorem exchangeTree_eq_nil (h : p.exchanges 0 = []) : p.exchangeTree = nil := by
  induction p with
  | nil => rfl
  | act a r ih =>
    cases ha : a.isSilent with
    | true =>
      rw [exchanges_act_of_isSilent ha] at h
      rw [exchangeTree_act_of_isSilent ha, ih h]
    | false =>
      rw [exchanges_act_of_not_isSilent ha] at h
      exact absurd h (List.cons_ne_nil _ _)
  | loop b r ihb ih =>
    rw [exchanges_loop, List.append_eq_nil_iff] at h
    rw [exchangeTree_loop, ihb (exchanges_eq_nil h.1 0), ih h.2, keepLoop_nil]

theorem outline_outline (p : Program) : p.outline.outline = p.outline := by
  induction p with
  | nil => rfl
  | act a r ih =>
    cases ha : a.isSilent with
    | true => rw [outline_act_of_isSilent ha, ih]
    | false => rw [outline_act_of_not_isSilent ha, outline_act_of_not_isSilent ha, ih]
  | loop b r ihb ih => rw [outline_loop, outline_loop, ihb, ih]

theorem exchangeTree_outline (p : Program) : p.outline.exchangeTree = p.exchangeTree := by
  rw [exchangeTree, outline_outline, exchangeTree]

/-- **Pruning keeps the loops that hold outputs and inputs**, and all of them
where they are. -/
theorem Pruned.exchangeTree_eq (h : q.Pruned p) : q.exchangeTree = p.exchangeTree := by
  induction h with
  | nil => rfl
  | act a _ ih =>
    cases ha : a.isSilent with
    | true => rw [exchangeTree_act_of_isSilent ha, exchangeTree_act_of_isSilent ha, ih]
    | false =>
      rw [exchangeTree_act_of_not_isSilent ha, exchangeTree_act_of_not_isSilent ha, ih]
  | loop _ _ ihb ih => rw [exchangeTree_loop, exchangeTree_loop, ihb, ih]
  | leaveOut hb _ ih => rw [exchangeTree_loop, exchangeTree_eq_nil hb, keepLoop_nil, ih]

/-! ## Passes -/

/-- A loop is kept if something is left of its body, and else its body held no
output or input. -/
theorem pruned_keepLoop {b b' r r' : Program} (hb : b'.outline.Pruned b.outline)
    (hr : r'.outline.Pruned r.outline) :
    (keepLoop b' r').outline.Pruned (loop b r).outline := by
  by_cases hn : b' = nil
  · have hnone : b.outline.exchanges 0 = [] := by
      rw [← hb.exchanges_eq, hn]
      rfl
    rw [hn, keepLoop_nil]
    exact .leaveOut hnone hr
  · rw [keepLoop_of_ne_nil hn]
    exact .loop hb hr

/-- An action in front of two programs, whether it is kept or not. -/
theorem pruned_keep (h : q.outline.Pruned p.outline) (a : Action) :
    (keep a q).outline.Pruned (act a p).outline := by
  rw [outline_keep]
  cases ha : a.isSilent with
  | true =>
    rw [outline_act_of_isSilent ha, outline_act_of_isSilent ha]
    exact h
  | false =>
    rw [outline_act_of_not_isSilent ha, outline_act_of_not_isSilent ha]
    exact .act a h

/-- **What comes of a run and the rest behind it is pruned.** The induction is
on the rest, for every action that the run so far is fused into. -/
theorem pruned_fuseFrom (p : Program) : ∀ a : Action,
    (fuseFrom policies a p).outline.Pruned (act a p).outline := by
  induction p with
  | nil =>
    intro a
    exact pruned_keep (.refl _) a
  | act b r ih =>
    intro a
    cases hf : a.fuse? policies b with
    | some c =>
      -- only moves and adds fuse, and none of the three is in the outline
      obtain ⟨ha, hb, hc⟩ := Action.isSilent_of_fuse? hf
      have hr : (fuseFrom policies c r).outline.Pruned (act c r).outline := ih c
      rw [fuseFrom_of_fuse? hf, outline_act_of_isSilent ha, outline_act_of_isSilent hb]
      rwa [outline_act_of_isSilent hc] at hr
    | none =>
      rw [fuseFrom_of_not_fuse? hf]
      exact pruned_keep (ih b) a
  | loop b r ihb ih =>
    intro a
    rw [fuseFrom_loop]
    exact pruned_keep (pruned_keepLoop (ihb (.move 0)) (ih (.move 0))) a

/-- **A pass prunes the outline.** -/
theorem pruned_pass (policies : Policies) (p : Program) :
    (p.pass policies).outline.Pruned p.outline :=
  pruned_fuseFrom p (.move 0)

theorem pruned_optimize (policies : Policies) (budget : Budget) (p : Program) :
    (p.optimize policies budget).outline.Pruned p.outline :=
  optimize_induction (motive := fun q => q.outline.Pruned p.outline)
    (fun q hq => (pruned_pass policies q).trans hq) budget (.refl _)

/-- **Optimizing keeps every output and input, in order and in its loop.**
Whatever the policies and the budget, the optimized program has the same
outputs and inputs in the order of its text, each at the same depth, and also
the same loops around them: a loop that holds an output or an input at any
depth is there before and after. The other loops may be left out, and those
that are not stand in the same order and in the same loops as before. -/
theorem optimize_keeps_exchanges (policies : Policies) (budget : Budget) (p : Program) :
    (p.optimize policies budget).exchanges 0 = p.exchanges 0 ∧
    (p.optimize policies budget).exchangeTree = p.exchangeTree ∧
    (p.optimize policies budget).outline.Pruned p.outline := by
  have hpruned : (p.optimize policies budget).outline.Pruned p.outline :=
    pruned_optimize policies budget p
  refine ⟨?_, ?_, hpruned⟩
  · rw [← exchanges_outline, hpruned.exchanges_eq, exchanges_outline]
  · rw [← exchangeTree_outline, hpruned.exchangeTree_eq, exchangeTree_outline]

/-- Two loops in a loop, of which the first cancels out: a pass leaves it out,
and the second, with an output in it, stays where it is. -/
example :
    ((loop (loop (act (.move 1) (act (.move (-1)) nil)) (loop (act .output nil) nil)) nil).pass
      ⟨.wrap, .wrap⟩).outline = loop (loop (act .output nil) nil) nil := rfl

end Brainfuck.Program
