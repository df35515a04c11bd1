import Brainfuck.Program.Normal
import Brainfuck.Proofs.Fusion.Iteration
/-!
# Stable programs are normal

A pass that changes nothing has found nothing to fuse and nothing to leave
out, at any depth: `IsStable.isNormal`. The proof compares sizes. What comes
of a run and the rest behind it has no more instructions than they have, so
where none is lost every action and every loop on the way is kept
(`isNormal_of_size`).

In the other direction a run that does not fuse with what comes behind it is
kept, and the pass goes on there as it began (`fuseFrom_of_first`). In a
normal program that is so of every action, so a pass leaves it alone:
`IsNormal.isStable`.
-/

namespace Brainfuck.Program

variable {policies : Policies}

/-- A program begins with an action that changes something, if it is normal
and begins with an action at all. -/
theorem IsNormal.not_isIdle {p : Program} (h : p.IsNormal policies) :
    ∀ a ∈ p.firstAction?, a.isIdle = false := by
  intro a ha
  cases p with
  | act b r =>
    cases ha
    exact h.1
  | nil | loop b r => cases ha

/-- What a normal program with an action in front is, by the rule that the
pass follows. -/
theorem isNormal_act_iff {a : Action} {r : Program} :
    (act a r).IsNormal policies ↔
      a.isIdle = false ∧ (∀ b ∈ r.firstAction?, a.fuse? policies b = none) ∧
        r.IsNormal policies := by
  have hfuse (ha : a.isIdle = false) (hr : r.IsNormal policies) :
      ∀ b ∈ r.firstAction?, a.fuse? policies b = none ↔ ¬ a.Fusible policies b := by
    intro b hb
    rw [← Action.isSome_fuse? ha (hr.not_isIdle b hb), Option.not_isSome_iff_eq_none]
  constructor
  · rintro ⟨ha, hb, hr⟩
    exact ⟨ha, fun b hmem => (hfuse ha hr b hmem).2 (hb b hmem), hr⟩
  · rintro ⟨ha, hb, hr⟩
    exact ⟨ha, fun b hmem => (hfuse ha hr b hmem).1 (hb b hmem), hr⟩

/-! ## Where no instruction is lost -/

theorem size_fuseFrom_le (a : Action) (p : Program) :
    (fuseFrom policies a p).size ≤ p.size + 1 :=
  ((fuseFrom_shrinks p a).trans (.keep_act a p)).size_le

theorem size_pass_le (p : Program) : (p.pass policies).size ≤ p.size :=
  (pass_shrinks p).size_le

/-- An action that is kept at its size is kept. -/
theorem size_of_keep {a : Action} {p : Program} {n : Nat} (hp : p.size ≤ n)
    (h : (keep a p).size = n + 1) : a.isIdle = false ∧ p.size = n := by
  cases ha : a.isIdle with
  | false =>
    rw [keep_of_not_isIdle ha, size] at h
    exact ⟨rfl, by omega⟩
  | true =>
    rw [keep_of_isIdle ha] at h
    omega

/-- A loop that is kept at its size is kept, with its body and what comes
after it. -/
theorem size_of_keepLoop {b p : Program} {m n : Nat} (hb : b.size ≤ m) (hp : p.size ≤ n)
    (h : (keepLoop b p).size = m + n + 1) : b ≠ nil ∧ b.size = m ∧ p.size = n := by
  by_cases hn : b = nil
  · rw [hn, keepLoop_nil] at h
    omega
  · rw [keepLoop_of_ne_nil hn, size] at h
    exact ⟨hn, by omega, by omega⟩

/-- **Where a run and the rest behind it lose no instruction, they are
normal**, and so is a program that loses none. The induction is on the rest,
for every action that the run so far is fused into. -/
theorem isNormal_of_size (p : Program) :
    (∀ a, (fuseFrom policies a p).size = p.size + 1 → (act a p).IsNormal policies) ∧
      ((p.pass policies).size = p.size → p.IsNormal policies) := by
  induction p with
  | nil =>
    refine ⟨fun a h => ?_, fun _ => trivial⟩
    have ha := (size_of_keep (Nat.le_refl 0) h).1
    exact isNormal_act_iff.2 ⟨ha, by simp [firstAction?], trivial⟩
  | act b r ih =>
    refine ⟨fun a h => ?_, fun h => ih.1 b (by rwa [pass_act] at h)⟩
    cases hf : a.fuse? policies b with
    | some c =>
      -- two instructions have become one
      rw [fuseFrom_of_fuse? hf, size] at h
      have hle : (fuseFrom policies c r).size ≤ r.size + 1 := size_fuseFrom_le c r
      omega
    | none =>
      rw [fuseFrom_of_not_fuse? hf] at h
      obtain ⟨ha, hsize⟩ := size_of_keep (size_fuseFrom_le b r) h
      refine isNormal_act_iff.2 ⟨ha, fun c hc => ?_, ih.1 b hsize⟩
      cases hc
      exact hf
  | loop b r ihb ih =>
    have hloop (h : (keepLoop (b.pass policies) (r.pass policies)).size = b.size + r.size + 1) :
        (loop b r).IsNormal policies := by
      obtain ⟨hn, hb, hr⟩ := size_of_keepLoop (size_pass_le b) (size_pass_le r) h
      refine ⟨?_, ihb.2 hb, ih.2 hr⟩
      rintro rfl
      exact hn rfl
    refine ⟨fun a h => ?_, hloop⟩
    rw [fuseFrom_loop] at h
    obtain ⟨ha, hsize⟩ := size_of_keep (Shrinks.keepLoop (pass_shrinks b) (pass_shrinks r)).size_le h
    exact isNormal_act_iff.2 ⟨ha, by simp [firstAction?], hloop hsize⟩

/-- **A stable program is normal.** -/
theorem IsStable.isNormal {p : Program} (h : IsStable policies p) : p.IsNormal policies :=
  (isNormal_of_size p).2 (congrArg size h)

/-! ## Where nothing fuses -/

/-- A run that does not fuse with the action behind it is kept, and the pass
goes on as it began. -/
theorem fuseFrom_of_first {a : Action} {p : Program} (ha : a.isIdle = false)
    (h : ∀ b ∈ p.firstAction?, a.fuse? policies b = none) :
    fuseFrom policies a p = act a (p.pass policies) := by
  cases p with
  | nil => rw [fuseFrom_nil, keep_of_not_isIdle ha, pass_nil]
  | act b r => rw [fuseFrom_of_not_fuse? (h b rfl), keep_of_not_isIdle ha, pass_act]
  | loop b r => rw [fuseFrom_loop, keep_of_not_isIdle ha, pass_loop]

/-- **A normal program is stable.** -/
theorem IsNormal.isStable {p : Program} (h : p.IsNormal policies) : IsStable policies p := by
  unfold IsStable
  induction p with
  | nil => rfl
  | act a r ih =>
    obtain ⟨ha, hfirst, hr⟩ := isNormal_act_iff.1 h
    rw [pass_act, fuseFrom_of_first ha hfirst, ih hr]
  | loop b r ihb ih =>
    obtain ⟨hn, hb, hr⟩ := h
    rw [pass_loop, ihb hb, ih hr, keepLoop_of_ne_nil hn]

/-- What the optimizer comes to without a budget is stable. -/
theorem isStable_optimize (p : Program) : IsStable policies (p.optimize policies .untilStable) := by
  obtain ⟨k, hk, h⟩ : ∃ k ≤ p.size, StableAfter policies k p := exists_stableAfter p
  rw [h.optimize_untilStable hk]
  exact h.stable

/-- **A pass leaves alone exactly the normal programs**: those in which, at
every depth, no action changes nothing, no loop is empty and no two
neighbours are fusible. So everything that the optimizer comes to without a
budget is normal. -/
theorem pass_eq_self_iff_isNormal (policies : Policies) :
    (∀ p : Program, p.pass policies = p ↔ p.IsNormal policies) ∧
      ∀ p : Program, (p.optimize policies (.ofNat 0)).IsNormal policies :=
  ⟨fun _ => ⟨IsStable.isNormal, IsNormal.isStable⟩, fun p => (isStable_optimize p).isNormal⟩

/-- Clamped, `64` twice is one more than the signed amount of a byte can be,
and `-64` twice is the least that it can be. -/
example : (act (.add 64) (act (.add 64) nil)).IsNormal ⟨.wrap, .clamp⟩ ∧
    ¬ (act (.add 192) (act (.add 192) nil)).IsNormal ⟨.wrap, .clamp⟩ := by decide

end Brainfuck.Program
