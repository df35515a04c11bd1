import Brainfuck.Proofs.Fusion.Shrinking
import Mathlib.Logic.Function.Iterate
/-!
# Passes come to an end

A pass that changes a program leaves fewer instructions, so after some
number of passes, no more than there are instructions, another one changes
nothing: `exists_stableAfter`. The driver finds that number by itself. It
makes the passes up to the first that changes nothing, whatever limit is
set beyond it (`passes_eq_iterates`), and what it returns is the iterate for
its budget (`getLastD_passes`), which is the stable program where there is
no budget.
-/

namespace Brainfuck

namespace Program

variable {policies : Policies}

/-- Comparing decides equality. -/
theorem same_iff (p q : Program) : same p q = true ↔ p = q := by
  rw [same, samePending_iff]
  simp

/-! ## Stable programs -/

/-- A pass changes nothing. -/
def IsStable (policies : Policies) (p : Program) : Prop := p.pass policies = p

/-- After `k` passes another one changes nothing, and not before. -/
structure StableAfter (policies : Policies) (k : Nat) (p : Program) : Prop where
  stable : IsStable policies ((pass policies)^[k] p)
  first : ∀ j < k, ¬ IsStable policies ((pass policies)^[j] p)

/-- A stable program is what any number of passes makes of it. -/
theorem IsStable.iterate {p : Program} (h : IsStable policies p) (n : Nat) :
    (pass policies)^[n] p = p :=
  Function.iterate_fixed h n

/-- From the first stable program on nothing changes. -/
theorem StableAfter.iterate_of_le {k n : Nat} {p : Program} (h : StableAfter policies k p)
    (hn : k ≤ n) : (pass policies)^[n] p = (pass policies)^[k] p := by
  obtain ⟨m, rfl⟩ := Nat.exists_eq_add_of_le' hn
  rw [Function.iterate_add_apply]
  exact h.stable.iterate m

theorem stableAfter_zero {p : Program} (h : IsStable policies p) : StableAfter policies 0 p :=
  ⟨h, fun j hj => absurd hj (Nat.not_lt_zero j)⟩

/-- A pass that changes something is one pass less to the end. -/
theorem stableAfter_succ_iff {k : Nat} {p : Program} (h : ¬ IsStable policies p) :
    StableAfter policies (k + 1) p ↔ StableAfter policies k (p.pass policies) := by
  constructor
  · rintro ⟨hs, hf⟩
    exact ⟨hs, fun j hj => hf (j + 1) (Nat.succ_lt_succ hj)⟩
  · rintro ⟨hs, hf⟩
    refine ⟨hs, fun j hj => ?_⟩
    cases j with
    | zero => exact h
    | succ j => exact hf j (Nat.lt_of_succ_lt_succ hj)

/-- **Passes come to an end**, after no more of them than there are
instructions: each that changes something takes at least one away. -/
theorem exists_stableAfter (p : Program) : ∃ k ≤ p.size, StableAfter policies k p := by
  induction hn : p.size using Nat.strongRecOn generalizing p with
  | ind n ih =>
    by_cases hs : IsStable policies p
    · exact ⟨0, Nat.zero_le _, stableAfter_zero hs⟩
    · have hlt : (p.pass policies).size < n := by
        have hp : (p.pass policies).Shrinks p := pass_shrinks p
        rcases hp with heq | hlt
        · exact absurd heq hs
        · rwa [hn] at hlt
      obtain ⟨k, hk, hstable⟩ := ih _ hlt (p.pass policies) rfl
      exact ⟨k + 1, by omega, (stableAfter_succ_iff hs).2 hstable⟩

/-! ## The driver -/

theorem passes_succ_of_isStable {p : Program} (h : IsStable policies p) (limit : Nat) :
    passes policies (limit + 1) p = [p.pass policies] := by
  rw [passes]
  exact if_pos ((same_iff _ _).2 h)

theorem passes_succ_of_not_isStable {p : Program} (h : ¬ IsStable policies p) (limit : Nat) :
    passes policies (limit + 1) p =
      p.pass policies :: passes policies limit (p.pass policies) := by
  rw [passes]
  exact if_neg (mt (same_iff _ _).1 h)

/-- **The driver stops by itself**: it makes the passes up to the first that
changes nothing, unless its limit comes before. -/
theorem passes_eq_iterates (limit : Nat) : ∀ {k : Nat} {p : Program}, StableAfter policies k p →
    passes policies limit p = iterates policies (min limit (k + 1)) p := by
  induction limit with
  | zero =>
    intro k p _
    rw [Nat.zero_min]
    rfl
  | succ limit ih =>
    intro k p h
    rw [Nat.succ_min_succ, iterates]
    by_cases hs : IsStable policies p
    · -- then there is no earlier stable program, and this pass is the only one
      obtain rfl : k = 0 := by
        by_contra hk
        exact h.first 0 (Nat.pos_of_ne_zero hk) hs
      rw [passes_succ_of_isStable hs, Nat.min_zero]
      rfl
    · cases k with
      | zero => exact absurd h.stable hs
      | succ k => rw [passes_succ_of_not_isStable hs, ih ((stableAfter_succ_iff hs).1 h)]

/-- **The last program is the iterate for the limit**: the passes that the
driver leaves out would have changed nothing. -/
theorem getLastD_passes (limit : Nat) : ∀ p : Program,
    (passes policies limit p).getLast?.getD p = (pass policies)^[limit] p := by
  induction limit with
  | zero =>
    intro p
    rfl
  | succ limit ih =>
    intro p
    by_cases hs : IsStable policies p
    · rw [passes_succ_of_isStable hs, hs.iterate]
      exact hs
    · rw [passes_succ_of_not_isStable hs, List.getLast?_cons, Function.iterate_succ_apply, ← ih]
      rfl

theorem optimize_atMost (n : Nat) (p : Program) :
    p.optimize policies (.atMost n) = (pass policies)^[n] p :=
  getLastD_passes n p

/-- Without a budget the driver returns the first stable program. -/
theorem StableAfter.optimize_untilStable {k : Nat} {p : Program} (h : StableAfter policies k p)
    (hk : k ≤ p.size) : p.optimize policies .untilStable = (pass policies)^[k] p := by
  have hlast : p.optimize policies .untilStable = (pass policies)^[p.size + 1] p :=
    getLastD_passes (p.size + 1) p
  rw [hlast, h.iterate_of_le (Nat.le_succ_of_le hk)]

/-- **The driver always stops, and returns the iterate it promises.** A pass
leaves no more instructions than it finds, and as many only if it changes
nothing. So some number of passes, no larger than the number of
instructions, is the first after which another changes nothing; whatever its
limit, the driver makes that one more and then stops. With a budget it
returns the iterate for the budget, and without one the first that a pass
leaves unchanged. -/
theorem optimize_eq_iterate (policies : Policies) (p : Program) :
    (p.pass policies).count ≤ p.count ∧
    ((p.pass policies).count = p.count ↔ p.pass policies = p) ∧
    (∃ k ≤ p.count, StableAfter policies k p ∧
      (∀ limit, passes policies limit p = iterates policies (min limit (k + 1)) p) ∧
      p.optimize policies (.ofNat 0) = (pass policies)^[k] p) ∧
    ∀ n, p.optimize policies (.ofNat (n + 1)) = (pass policies)^[n + 1] p := by
  rw [count_eq_size, count_eq_size]
  refine ⟨(pass_shrinks p).size_le, (pass_shrinks p).size_eq_iff, ?_, ?_⟩
  · obtain ⟨k, hk, h⟩ : ∃ k ≤ p.size, StableAfter policies k p := exists_stableAfter p
    exact ⟨k, hk, h, fun limit => passes_eq_iterates limit h, h.optimize_untilStable hk⟩
  · intro n
    exact optimize_atMost (n + 1) p

end Program

end Brainfuck
