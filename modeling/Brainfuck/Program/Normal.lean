import Brainfuck.Program.Fusion
/-!
# Normal programs

A program is normal if nothing in it is left to fuse or to leave out: no
action changes nothing, no loop is empty, and no two neighbours are
fusible, at any depth. Which neighbours are fusible is said here of the
amounts alone: any two moves, or any two adds, where the bound wraps; and
where it clamps those that point the same way, two adds only as long as
their sum is the signed amount of a byte.

`isSome_fuse?` ties this to the rule that the pass follows.
-/

namespace Brainfuck

namespace Action

/-- Two actions, neither of which changes nothing, that one action can stand
for. -/
def Fusible (policies : Policies) : Action → Action → Prop
  | move x, move y => policies.tape = .clamp → (0 < x ↔ 0 < y)
  | add d, add e =>
    policies.cell = .clamp →
      (0 < signed d ↔ 0 < signed e) ∧ -128 ≤ signed d + signed e ∧ signed d + signed e ≤ 127
  | _, _ => False

instance (policies : Policies) (a b : Action) : Decidable (Fusible policies a b) := by
  cases a <;> cases b <;> simp only [Fusible] <;> infer_instance

theorem sameWay_iff {x y : Int} : sameWay x y = true ↔ (0 < x ↔ 0 < y) := by
  rw [sameWay, beq_iff_eq, decide_eq_decide]

/-- **The pass fuses what is fusible.** -/
theorem isSome_fuse? {policies : Policies} {a b : Action} (ha : a.isIdle = false)
    (hb : b.isIdle = false) : (a.fuse? policies b).isSome = true ↔ Fusible policies a b := by
  obtain ⟨tape, cell⟩ := policies
  cases a <;> cases b <;> simp only [fuse?, Fusible, Option.isSome_none, Option.isSome_map]
  case move.move x y =>
    simp only [isIdle, beq_eq_false_iff_ne] at ha hb
    cases tape
    · simp [fuseMoves?]
    · simp only [fuseMoves?, if_neg ha, if_neg hb, forall_const, ← sameWay_iff]
      split <;> simp_all
  case add.add d e =>
    simp only [isIdle, beq_eq_false_iff_ne] at ha hb
    cases cell
    · simp [fuseAdds?]
    · simp only [fuseAdds?, if_neg ha, if_neg hb, forall_const, ← sameWay_iff]
      split <;> simp_all
  all_goals simp

end Action

namespace Program

/-- The action that a program begins with, if it begins with one. -/
def firstAction? : Program → Option Action
  | act a _ => some a
  | _ => none

/-- Nothing is left to fuse or to leave out. -/
def IsNormal (policies : Policies) : Program → Prop
  | nil => True
  | act a r =>
    a.isIdle = false ∧ (∀ b ∈ r.firstAction?, ¬ a.Fusible policies b) ∧ IsNormal policies r
  | loop b r => b ≠ nil ∧ IsNormal policies b ∧ IsNormal policies r

instance decidableIsNormal (policies : Policies) : (p : Program) → Decidable (p.IsNormal policies)
  | nil => inferInstanceAs (Decidable True)
  | act _ r =>
    have := decidableIsNormal policies r
    inferInstanceAs (Decidable (_ ∧ _ ∧ _))
  | loop b r =>
    have := decidableIsNormal policies b
    have := decidableIsNormal policies r
    inferInstanceAs (Decidable (_ ∧ _ ∧ _))

end Program

end Brainfuck
