import Brainfuck.Options
import Brainfuck.Proofs.Fusion.Soundness
/-!
# The optimizer as an option

A compiled program can stand in for the program, since the optimizer is
given the very policies of the machine (`Options.refines_compile`). So the
runs of a source with and without the optimizer come to the same:
`Options.runSource_imitates`.

A run has a bound, and an optimized one may need another. `Imitates` is
what remains: wherever the one computation comes to a result, the other
comes to a related one under all large bounds, and leaves the same state. It
is preserved by what computations are made of, so that programs around a run
are followed part by part.
-/

namespace Brainfuck

variable {σ ε α β γ : Type} {policies : Policies} {device : Device (StateM σ) ε}

/-! ## Computations with a bound -/

/-- Wherever the first computation comes to a result, within some bound, the
second comes to a related one, whatever larger bound it has, and leaves the
same state. -/
def Imitates (P : α → β → Prop) (x : Nat → StateM σ (Option α)) (y : Nat → StateM σ (Option β)) :
    Prop :=
  ∀ bound s a t, x bound s = (some a, t) →
    ∃ bound' b, P a b ∧ ∀ larger, bound' ≤ larger → y larger s = (some b, t)

namespace Imitates

/-- What does not depend on the bound. -/
theorem refl (x : StateM σ (Option α)) : Imitates Eq (fun _ => x) (fun _ => x) :=
  fun bound _ a _ h => ⟨bound, a, rfl, fun _ _ => h⟩

/-- A result at once. -/
theorem result {P : α → β → Prop} {a : α} {b : β} (h : P a b) :
    Imitates P (σ := σ) (fun _ => pure (some a)) (fun _ => pure (some b)) := by
  intro bound s a' t hx
  cases hx
  exact ⟨0, b, h, fun _ _ => rfl⟩

/-- The same call before both. -/
theorem bind_left {P : α → β → Prop} (call : StateM σ γ) {x : Nat → γ → StateM σ (Option α)}
    {y : Nat → γ → StateM σ (Option β)}
    (h : ∀ v, Imitates P (fun bound => x bound v) (fun bound => y bound v)) :
    Imitates P (fun bound => call >>= x bound) (fun bound => call >>= y bound) :=
  fun bound s a t hx => h (call s).1 bound (call s).2 a t hx

/-- What is done with the result, if nothing is done without one. -/
theorem bind_right {P : α → β → Prop} {Q : γ → ε → Prop} {x : Nat → StateM σ (Option α)}
    {y : Nat → StateM σ (Option β)} {k : Option α → StateM σ (Option γ)}
    {l : Option β → StateM σ (Option ε)} (h : Imitates P x y) (hnone : k none = pure none)
    (hk : ∀ a b, P a b → Imitates Q (fun _ => k (some a)) (fun _ => l (some b))) :
    Imitates Q (fun bound => x bound >>= k) (fun bound => y bound >>= l) := by
  intro bound s c t hx
  simp only [bind, StateT.bind] at hx ⊢
  rcases hr : x bound s with ⟨_ | a, u⟩
  · simp only [hr, hnone] at hx
    cases hx
  · rw [hr] at hx
    obtain ⟨bound', b, hP, hy⟩ := h bound s a u hr
    obtain ⟨bound'', d, hQ, hl⟩ := hk a b hP bound u c t hx
    refine ⟨bound', d, hQ, fun larger hle => ?_⟩
    rw [hy larger hle]
    exact hl bound'' (Nat.le_refl _)

end Imitates

/-! ## Compiled programs -/

/-- The same result for the user: the same rejection, or an end with the same
failure and the same tape. -/
inductive SourceOutcome.Agrees : SourceOutcome ε → SourceOutcome ε → Prop where
  | rejected (e : ParseError) : Agrees (.rejected e) (.rejected e)
  | ran {p q : Program} {outcome outcome' : Outcome ε} :
      outcome'.Agrees outcome → Agrees (.ran p outcome) (.ran q outcome')

namespace Options

/-- The optimizer is given the policies of the machine. -/
theorem refines_compile (o : Options) (p : Program) :
    Refines o.policies device p (o.compile p) := by
  unfold compile
  split
  · exact .refl p
  · exact refines_optimize ⟨id, id⟩ _ p

theorem compile_of_none {o : Options} (h : o.optimization = none) (p : Program) :
    o.compile p = p := by
  rw [compile, h]

/-- A run of what stands in for a program ends alike. -/
theorem run_imitates (o : Options) (optimization : Option Budget) {p q : Program}
    (h : Refines o.policies device p q) :
    Imitates (fun outcome outcome' : Outcome ε => outcome'.Agrees outcome)
      (fun bound => o.run device bound p)
      (fun bound => { o with optimization }.run device bound q) := by
  intro bound s outcome t hx
  obtain ⟨outcome', ⟨bound', hy⟩, hw⟩ := h.ends ⟨bound, hx⟩
  exact ⟨bound', outcome', hw.agrees, fun larger hle => runFor_mono hle hy⟩

/-- **The optimizer changes nothing about the run of a source**, but for the
number of instructions. -/
theorem runSource_imitates {o : Options} (h : o.optimization = none)
    (optimization : Option Budget) (source : List Reply) :
    Imitates SourceOutcome.Agrees (fun bound => o.runSource device bound source)
      (fun bound => { o with optimization }.runSource device bound source) := by
  unfold runSource
  cases Program.ofReplies source with
  | error e => exact .result (.rejected e)
  | ok p =>
    have hp : Refines o.policies device (o.compile p) ({ o with optimization }.compile p) := by
      rw [compile_of_none h]
      exact refines_compile { o with optimization } p
    refine (run_imitates o optimization hp).bind_right rfl ?_
    intro outcome outcome' ha
    exact .result (.ran ha)

end Options

end Brainfuck
