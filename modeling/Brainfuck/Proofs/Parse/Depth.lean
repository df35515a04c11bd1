import Brainfuck.Proofs.Parse.Derivation
/-!
# Brackets and their partners

Read from the left, a code never closes more brackets than it has opened
(`Derives.depth_nonneg`), and every bracket that it opens it closes as well:
behind the bracket there is a code, and behind that the closing bracket
(`Derives.closes`). What follows a bracket that is never closed holds no
partner for it (`Derives.not_closes`).
-/

namespace Brainfuck

/-! ## Depth -/

theorem depth_append (code code' : List Symbol) :
    depth (code ++ code') = depth code + depth code' := by
  simp only [depth, List.count_append]
  omega

theorem depth_cons (s : Symbol) (code : List Symbol) :
    depth (s :: code) = depth [s] + depth code :=
  depth_append [s] code

@[simp] theorem depth_loopStart : depth [.loopStart] = 1 := rfl

@[simp] theorem depth_loopEnd : depth [.loopEnd] = -1 := rfl

theorem Statement.depth_eq {s : Symbol} {a : Action} (h : Statement s a) : depth [s] = 0 := by
  cases h <;> rfl

/-- The first piece of two rows ends in the first of them, or behind it. -/
theorem prefix_append_cases {α : Type} {pre l l' : List α} (h : pre <+: l ++ l') :
    pre <+: l ∨ ∃ mid, mid <+: l' ∧ pre = l ++ mid := by
  rcases List.prefix_or_prefix_of_prefix h (List.prefix_append l l') with hin | ⟨mid, rfl⟩
  · exact Or.inl hin
  · exact Or.inr ⟨mid, (List.prefix_append_right_inj l).mp h, rfl⟩

/-- **A code closes nothing that it has not opened.** -/
theorem Derives.depth_nonneg {code : List Symbol} {tree : Program} (h : Derives code tree) :
    ∀ {pre : List Symbol}, pre <+: code → 0 ≤ depth pre := by
  induction h with
  | nil =>
    intro pre hp
    rw [List.prefix_nil.mp hp]
    exact Int.le_refl 0
  | @simple s a code tree hs _ ih =>
    intro pre hp
    rcases List.prefix_cons_iff.mp hp with rfl | ⟨pre', rfl, hp'⟩
    · exact Int.le_refl 0
    · have := ih hp'
      rw [depth_cons, hs.depth_eq]
      omega
  | @loop inside code body tree hb _ ihb ih =>
    intro pre hp
    rw [List.cons_append] at hp
    rcases List.prefix_cons_iff.mp hp with rfl | ⟨pre', rfl, hp'⟩
    · exact Int.le_refl 0
    rw [depth_cons, depth_loopStart]
    -- it ends inside of the brackets, at the closing one, or behind it
    rcases prefix_append_cases hp' with hin | ⟨mid, hmid, rfl⟩
    · have := ihb hin
      omega
    rw [depth_append, hb.depth_eq]
    rcases List.prefix_cons_iff.mp hmid with rfl | ⟨pre', rfl, hrest⟩
    · decide
    · have := ih hrest
      rw [depth_cons, depth_loopEnd]
      omega

/-! ## Partners -/

/-- What follows an opening bracket holds its partner: the closing bracket
with a code between the two. -/
def Closes (after : List Symbol) : Prop :=
  ∃ inside tree rest, Derives inside tree ∧ after = inside ++ .loopEnd :: rest

theorem Closes.append {after : List Symbol} (h : Closes after) (more : List Symbol) :
    Closes (after ++ more) := by
  obtain ⟨inside, tree, rest, hd, rfl⟩ := h
  exact ⟨inside, tree, rest ++ more, hd, by rw [List.append_assoc, List.cons_append]⟩

/-- **A code holds the partner of each bracket that it opens.** -/
theorem Derives.closes {code : List Symbol} {tree : Program} (h : Derives code tree) :
    ∀ {before after : List Symbol}, code = before ++ .loopStart :: after → Closes after := by
  induction h with
  | nil =>
    intro before after heq
    simp at heq
  | @simple s a code tree hs _ ih =>
    intro before after heq
    cases before with
    | nil => exact (hs.ne_loopStart (List.cons.inj heq).1).elim
    | cons s' before => exact ih (List.cons.inj heq).2
  | @loop inside code body tree hb _ ihb ih =>
    intro before after heq
    cases before with
    | nil => exact ⟨inside, body, code, hb, (List.cons.inj heq).2.symm⟩
    | cons s before =>
      have htail : inside ++ .loopEnd :: code = before ++ .loopStart :: after :=
        (List.cons.inj heq).2
      rcases List.append_eq_append_iff.mp htail with ⟨mid, rfl, hmid⟩ | ⟨mid, rfl, hmid⟩
      · -- the bracket stands behind the closing one
        cases mid with
        | nil => cases hmid
        | cons s' mid => exact ih (List.cons.inj hmid).2
      · -- the bracket stands inside
        cases mid with
        | nil => cases hmid
        | cons s' mid =>
          obtain ⟨rfl, rfl⟩ := List.cons.inj hmid
          exact (ihb rfl).append _

/-- A code does not close a bracket in front of it. -/
theorem Derives.not_closes {code : List Symbol} {tree : Program} (h : Derives code tree) :
    ¬ Closes code := by
  rintro ⟨inside, tree', rest, hd, rfl⟩
  have hp : inside ++ [.loopEnd] <+: inside ++ .loopEnd :: rest :=
    (List.prefix_append_right_inj inside).mpr (List.prefix_append [.loopEnd] rest)
  have hneg := h.depth_nonneg hp
  rw [depth_append, hd.depth_eq] at hneg
  exact absurd hneg (by decide)

end Brainfuck
