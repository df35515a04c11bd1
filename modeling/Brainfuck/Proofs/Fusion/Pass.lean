import Brainfuck.Proofs.Execution.Actions
/-!
# What a pass does to a program

The equations of a pass, by the instruction that comes next: `pass_act`,
`pass_loop` and `fuseFrom_of_not_isSilent` say that nothing is ever fused
with output, input or a loop, so the pass goes on behind them as it began.
`tapeAfter_fuse?` is the one fact about machines: where two actions fuse,
the fused one leaves the tape that the two leave, on every machine whose
policies the assumed ones admit. `optimize_induction` carries a property
from a program through any number of passes.
-/

namespace Brainfuck

/-- Whether a machine may have the actual policies where a pass assumes the
others: a pass that assumes wrapping needs it, and one that assumes
clamping is right either way. -/
def Policies.Admits (assumed actual : Policies) : Prop :=
  (assumed.tape = .wrap → actual.tape = .wrap) ∧ (assumed.cell = .wrap → actual.cell = .wrap)

instance (assumed actual : Policies) : Decidable (assumed.Admits actual) :=
  inferInstanceAs (Decidable (_ ∧ _))

namespace Action

variable {policies assumed actual : Policies} {a b c : Action}

/-- Only silent actions fuse, and into a silent one. -/
theorem isSilent_of_fuse? (h : a.fuse? policies b = some c) :
    a.isSilent = true ∧ b.isSilent = true ∧ c.isSilent = true := by
  cases a <;> cases b <;> simp only [fuse?, Option.map_eq_some_iff, reduceCtorEq] at h
  all_goals
    obtain ⟨-, -, rfl⟩ := h
    exact ⟨rfl, rfl, rfl⟩

theorem fuse?_eq_none_of_left (h : a.isSilent = false) : a.fuse? policies b = none := by
  cases hf : a.fuse? policies b with
  | none => rfl
  | some c => simp [(isSilent_of_fuse? hf).1] at h

theorem fuse?_eq_none_of_right (h : b.isSilent = false) : a.fuse? policies b = none := by
  cases hf : a.fuse? policies b with
  | none => rfl
  | some c => simp [(isSilent_of_fuse? hf).2.1] at h

/-- **Where two actions fuse, the fused one does what the two do.** -/
theorem tapeAfter_fuse? (h : assumed.Admits actual) (hf : a.fuse? assumed b = some c) (t : Tape) :
    b.tapeAfter actual (a.tapeAfter actual t) = c.tapeAfter actual t := by
  cases a <;> cases b <;> simp only [fuse?, Option.map_eq_some_iff, reduceCtorEq] at hf
  case move.move x y =>
    obtain ⟨z, hz, rfl⟩ := hf
    exact Tape.moved_moved h.1 hz t
  case add.add d e =>
    obtain ⟨f, hf, rfl⟩ := hf
    exact Tape.changed_changed h.2 hf t

end Action

namespace Program

variable {policies : Policies}

/-! ## Keeping -/

theorem keep_of_isIdle {a : Action} (h : a.isIdle = true) (p : Program) : keep a p = p := by
  rw [keep, if_pos h]

theorem keep_of_not_isIdle {a : Action} (h : a.isIdle = false) (p : Program) :
    keep a p = act a p := by
  rw [keep, if_neg (by simp [h])]

theorem keep_of_not_isSilent {a : Action} (h : a.isSilent = false) (p : Program) :
    keep a p = act a p := by
  cases a
  case move | add => cases h
  all_goals rfl

@[simp] theorem keep_append (a : Action) (p q : Program) : keep a p ++ q = keep a (p ++ q) := by
  unfold keep
  split <;> rfl

/-! ## The equations of a pass -/

theorem fuseFrom_nil (a : Action) : fuseFrom policies a nil = keep a nil := rfl

theorem fuseFrom_of_fuse? {a b c : Action} (h : a.fuse? policies b = some c) (r : Program) :
    fuseFrom policies a (act b r) = fuseFrom policies c r := by
  simp only [fuseFrom, h]

theorem fuseFrom_of_not_fuse? {a b : Action} (h : a.fuse? policies b = none) (r : Program) :
    fuseFrom policies a (act b r) = keep a (fuseFrom policies b r) := by
  simp only [fuseFrom, h]

theorem fuseFrom_loop (a : Action) (b r : Program) :
    fuseFrom policies a (loop b r) = keep a (keepLoop (b.pass policies) (r.pass policies)) := rfl

@[simp] theorem pass_nil : nil.pass policies = nil := rfl

/-- The run of an action begins with it. -/
theorem pass_act (b : Action) (r : Program) : (act b r).pass policies = fuseFrom policies b r := by
  cases b with
  | move y =>
    have h : (Action.move 0).fuse? policies (.move y) = some (.move y) := by
      simp only [Action.fuse?, fuseMoves?]
      cases policies.tape <;> simp
    exact fuseFrom_of_fuse? h r
  | add d => rfl
  | output => rfl
  | input => rfl

theorem pass_loop (b r : Program) :
    (loop b r).pass policies = keepLoop (b.pass policies) (r.pass policies) := rfl

/-- **Nothing is fused with output or input**: behind them the pass goes on
as it began. -/
theorem fuseFrom_of_not_isSilent {a : Action} (h : a.isSilent = false) (p : Program) :
    fuseFrom policies a p = act a (p.pass policies) := by
  cases p with
  | nil => rw [fuseFrom_nil, keep_of_not_isSilent h, pass_nil]
  | act b r =>
    rw [fuseFrom_of_not_fuse? (Action.fuse?_eq_none_of_left h), keep_of_not_isSilent h, pass_act]
  | loop b r => rw [fuseFrom_loop, keep_of_not_isSilent h, pass_loop]

/-! ## Many passes -/

theorem passes_induction {motive : Program → Prop}
    (step : ∀ q, motive q → motive (q.pass policies)) (limit : Nat) {p : Program}
    (start : motive p) : ∀ q ∈ passes policies limit p, motive q := by
  induction limit generalizing p with
  | zero => simp [passes]
  | succ limit ih =>
    intro q hq
    rw [passes] at hq
    split at hq
    · -- the pass that changes nothing is the last
      obtain rfl : q = p.pass policies := by simpa using hq
      exact step p start
    · rcases List.mem_cons.1 hq with rfl | hq
      · exact step p start
      · exact ih (step p start) q hq

/-- **What holds of a program and is kept by a pass holds of the optimized
program.** -/
theorem optimize_induction {motive : Program → Prop}
    (step : ∀ q, motive q → motive (q.pass policies)) (budget : Budget) {p : Program}
    (start : motive p) : motive (p.optimize policies budget) := by
  rw [optimize]
  cases hl : (passes policies (budget.limit p) p).getLast? with
  | none => exact start
  | some q => exact passes_induction step _ start q (List.mem_of_getLast? hl)

end Program

end Brainfuck
