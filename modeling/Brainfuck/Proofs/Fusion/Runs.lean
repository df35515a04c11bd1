import Brainfuck.Program.Runs
import Brainfuck.Proofs.Fusion.Pass
/-!
# A pass, run by run

The pass goes on from one instruction to the next with the action that the
run so far has been fused into. Here it is shown to do what is said of whole
runs in `Brainfuck.Program.Runs`.

Clamped, the pending action is the latest amount of those that the run has
come to (`Saturates.acts_fuseFrom`); wrapping, it is the sum of the run so far
(`fuseFrom_summed`). Moves and adds are treated alike there, as actions that
are made of integers. So a run that is followed by an instruction of another
kind is replaced by what it is fused into: `pass_moves` and `pass_adds`.

A program is split into its longest runs in one way (`eq_grouped_iff`), and
the pass is the fusion of these runs (`pass_eq_fused`).
-/

namespace Brainfuck

/-! ## Amounts of an add -/

theorem toNat_deltaOf (x : Int) : ((deltaOf x).toNat : Int) = x % 256 := by
  rw [deltaOf, UInt8.toNat_ofNat']
  omega

theorem deltaOf_toNat (d : UInt8) : deltaOf d.toNat = d := by
  have := d.toNat_lt
  rw [← UInt8.toNat_inj, ← Int.natCast_inj, toNat_deltaOf]
  omega

theorem deltaOf_signed (d : UInt8) : deltaOf (signed d) = d := by
  have := d.toNat_lt
  rw [← UInt8.toNat_inj, ← Int.natCast_inj, toNat_deltaOf, signed_eq]
  omega

theorem deltaOf_add (x y : Int) : deltaOf x + deltaOf y = deltaOf (x + y) := by
  have hx := toNat_deltaOf x
  have hy := toNat_deltaOf y
  rw [← UInt8.toNat_inj, ← Int.natCast_inj, UInt8.toNat_add, toNat_deltaOf]
  omega

theorem fitsDelta_iff {x : Int} : fitsDelta x = true ↔ -128 ≤ x ∧ x ≤ 127 := by
  simp [fitsDelta]

theorem fitsDelta_signed (d : UInt8) : fitsDelta (signed d) = true :=
  fitsDelta_iff.2 (signed_bounds d)

/-- An amount that fits is the signed amount of its byte. -/
theorem signed_deltaOf {x : Int} (h : fitsDelta x = true) : signed (deltaOf x) = x := by
  obtain ⟨h₀, h₁⟩ := fitsDelta_iff.1 h
  rw [signed_eq, toNat_deltaOf]
  omega

theorem deltaOf_eq_zero {x : Int} (h : fitsDelta x = true) : deltaOf x = 0 ↔ x = 0 := by
  constructor
  · intro hx
    rw [← signed_deltaOf h, hx, signed_zero]
  · rintro rfl
    rfl

namespace Program

variable {policies : Policies} {mk : Int → Action} {q : Program}

/-- A run that fuses with nothing behind it is kept, if it changes anything,
and the pass goes on as it began. -/
theorem fuseFrom_eq_keep {a : Action} (h : ∀ b ∈ q.firstAction?, a.fuse? policies b = none) :
    fuseFrom policies a q = keep a (q.pass policies) := by
  cases q with
  | nil => rfl
  | act b r => rw [fuseFrom_of_not_fuse? (h b rfl), pass_act]
  | loop b r => rfl

/-- What is kept of an action in front. -/
theorem keep_eq_acts (a : Action) (p : Program) :
    keep a p = acts (if a.isIdle then [] else [a]) p := by
  unfold keep
  split <;> rfl

/-! ## Where a run is summed -/

/-- Where every two actions fuse, the pending action is the sum so far. -/
theorem fuseFrom_summed (hfuse : ∀ x y, (mk x).fuse? policies (mk y) = some (mk (x + y)))
    (run : List Int) (q : Program) : ∀ x,
    fuseFrom policies (mk x) (acts (run.map mk) q) =
      fuseFrom policies (mk (run.foldl (· + ·) x)) q := by
  induction run with
  | nil => exact fun _ => rfl
  | cons y run ih =>
    intro x
    rw [List.map_cons, acts_cons, fuseFrom_of_fuse? (hfuse x y), ih, List.foldl_cons]

/-- Such a run is fused into its sum, and behind it the pass goes on as it
began. -/
theorem pass_summed (hfuse : ∀ x y, (mk x).fuse? policies (mk y) = some (mk (x + y)))
    (hidle : (mk 0).isIdle = true) (run : List Int)
    (hq : ∀ x, ∀ b ∈ q.firstAction?, (mk x).fuse? policies b = none) :
    (acts (run.map mk) q).pass policies = keep (mk (total run)) (q.pass policies) := by
  cases run with
  | nil => exact (keep_of_isIdle hidle _).symm
  | cons x run =>
    rw [List.map_cons, acts_cons, pass_act, fuseFrom_summed hfuse, fuseFrom_eq_keep (hq _), total,
      List.foldl_cons, Int.zero_add]

/-! ## Where a run is saturated -/

/-- Actions made of integers that fit, of which two fuse where neither of them
changes anything, or where they point the same way and their sum fits. -/
structure Saturates (policies : Policies) (mk : Int → Action) (fits : Int → Bool) : Prop where
  isIdle : ∀ x, fits x = true → ((mk x).isIdle = true ↔ x = 0)
  fuse? : ∀ x y, fits x = true → fits y = true → (mk x).fuse? policies (mk y) =
    if x = 0 then some (mk y)
    else if y = 0 then some (mk x)
    else if sameWay x y && fits (x + y) then some (mk (x + y))
    else none

namespace Saturates

variable {fits : Int → Bool} (h : Saturates policies mk fits)
include h

theorem isIdle_eq_false {x : Int} (hx : fits x = true) (hne : x ≠ 0) : (mk x).isIdle = false :=
  Bool.eq_false_iff.2 fun hidle => hne ((h.isIdle x hx).1 hidle)

/-- A pending action that changes nothing is forgotten. -/
theorem fuseFrom_zero (h₀ : fits 0 = true) {run : List Int} (hrun : ∀ y ∈ run, fits y = true)
    (hq : ∀ x, ∀ b ∈ q.firstAction?, (mk x).fuse? policies b = none) :
    fuseFrom policies (mk 0) (acts (run.map mk) q) = (acts (run.map mk) q).pass policies := by
  cases run with
  | nil => exact (fuseFrom_eq_keep (hq 0)).trans (keep_of_isIdle ((h.isIdle 0 h₀).2 rfl) _)
  | cons y run =>
    have hf : (mk 0).fuse? policies (mk y) = some (mk y) := by
      rw [h.fuse? 0 y h₀ (hrun y (List.mem_cons_self ..)), if_pos rfl]
    rw [List.map_cons, acts_cons, fuseFrom_of_fuse? hf, pass_act]

/-- **The pending action is the latest amount**: what is behind it has been
kept, and it is what the rest of the run is added to. The induction is on that
rest. -/
theorem acts_fuseFrom (hq : ∀ x, ∀ b ∈ q.firstAction?, (mk x).fuse? policies b = none)
    (run : List Int) : (∀ y ∈ run, fits y = true) → ∀ x earlier, fits x = true → x ≠ 0 →
    acts (earlier.reverse.map mk) (fuseFrom policies (mk x) (acts (run.map mk) q)) =
      acts ((run.foldl (saturate fits) (x :: earlier)).reverse.map mk) (q.pass policies) := by
  induction run with
  | nil =>
    intro _ x earlier hx hne
    have hkeep : fuseFrom policies (mk x) q = act (mk x) (q.pass policies) :=
      (fuseFrom_eq_keep (hq x)).trans (keep_of_not_isIdle (h.isIdle_eq_false hx hne) _)
    rw [List.map_nil, acts_nil, hkeep, List.foldl_nil, List.reverse_cons, List.map_append,
      acts_append]
    rfl
  | cons y run ih =>
    intro hrun x earlier hx hne
    obtain ⟨hy, hrun⟩ := List.forall_mem_cons.1 hrun
    have hf := h.fuse? x y hx hy
    rw [if_neg hne] at hf
    rw [List.map_cons, acts_cons, List.foldl_cons, saturate]
    by_cases hy₀ : y = 0
    · rw [if_pos hy₀] at hf ⊢
      rw [fuseFrom_of_fuse? hf, ih hrun x earlier hx hne]
    rw [if_neg hy₀] at hf ⊢
    by_cases hs : (sameWay x y && fits (x + y)) = true
    · rw [if_pos hs] at hf
      have hsame : 0 < x ↔ 0 < y := Action.sameWay_iff.1 (Bool.and_eq_true_iff.1 hs).1
      simp only [if_pos hs]
      rw [fuseFrom_of_fuse? hf,
        ih hrun (x + y) earlier (Bool.and_eq_true_iff.1 hs).2 (by omega)]
    · rw [if_neg hs] at hf
      simp only [if_neg hs]
      rw [fuseFrom_of_not_fuse? hf, keep_of_not_isIdle (h.isIdle_eq_false hx hne),
        ← ih hrun y (x :: earlier) hy hy₀, List.reverse_cons, List.map_append, acts_append]
      rfl

/-- Behind a run that is saturated the pass goes on as it began. -/
theorem pass_acts (h₀ : fits 0 = true)
    (hq : ∀ x, ∀ b ∈ q.firstAction?, (mk x).fuse? policies b = none) {run : List Int}
    (hrun : ∀ y ∈ run, fits y = true) :
    (acts (run.map mk) q).pass policies =
      acts ((fuseSaturating fits run).map mk) (q.pass policies) := by
  induction run with
  | nil => rfl
  | cons x run ih =>
    obtain ⟨hx, hrun⟩ := List.forall_mem_cons.1 hrun
    rw [List.map_cons, acts_cons, pass_act, fuseSaturating, List.foldl_cons, saturate]
    by_cases hne : x = 0
    · rw [if_pos hne, hne, h.fuseFrom_zero h₀ hrun hq, ih hrun, fuseSaturating]
    · rw [if_neg hne]
      exact h.acts_fuseFrom hq run hrun x [] hx hne

end Saturates

/-! ## Runs of moves and runs of adds -/

/-- An action of another kind fuses with no move. -/
theorem fuse?_move_eq_none {b : Action} (h : b.shift? = none) (x : Int) :
    (Action.move x).fuse? policies b = none := by
  cases b with
  | move n => cases h
  | add | output | input => rfl

/-- And with no add. -/
theorem fuse?_add_eq_none {b : Action} (h : b.delta? = none) (d : UInt8) :
    (Action.add d).fuse? policies b = none := by
  cases b with
  | add e => cases h
  | move | output | input => rfl

theorem saturates_move (cell : Overflow) :
    Saturates ⟨.clamp, cell⟩ Action.move (fun _ => true) where
  isIdle := by
    intro x _
    exact beq_iff_eq
  fuse? := by
    intro x y _ _
    simp only [Action.fuse?, fuseMoves?, apply_ite (Option.map Action.move), Option.map_some,
      Option.map_none, Bool.and_true]

theorem saturates_add (tape : Overflow) :
    Saturates ⟨tape, .clamp⟩ (fun x => Action.add (deltaOf x)) fitsDelta where
  isIdle := by
    intro x hx
    rw [Action.isIdle, beq_iff_eq, deltaOf_eq_zero hx]
  fuse? := by
    intro x y hx hy
    simp only [Action.fuse?, fuseAdds?, deltaOf_eq_zero hx, deltaOf_eq_zero hy, signed_deltaOf hx,
      signed_deltaOf hy, deltaOf_add, Bool.and_eq_true, fitsDelta_iff,
      apply_ite (Option.map Action.add), Option.map_some, Option.map_none]

/-- **A run of moves comes to what its shifts are fused into**, if no move is
behind it. -/
theorem pass_moves (hq : ∀ b ∈ q.firstAction?, b.shift? = none) (run : List Int) :
    (acts (run.map .move) q).pass policies =
      acts ((fuseShifts policies.tape run).map .move) (q.pass policies) := by
  have hnone : ∀ x, ∀ b ∈ q.firstAction?, (Action.move x).fuse? policies b = none :=
    fun x b hb => fuse?_move_eq_none (hq b hb) x
  obtain ⟨tape, cell⟩ := policies
  cases tape with
  | wrap =>
    rw [pass_summed (fun _ _ => rfl) rfl run hnone, keep_eq_acts, Action.isIdle]
    simp only [beq_iff_eq, fuseShifts, apply_ite (List.map Action.move), List.map_nil,
      List.map_cons]
  | clamp => exact (saturates_move cell).pass_acts rfl hnone fun _ _ => rfl

/-- **A run of adds comes to what its changes are fused into**, if no add is
behind it. -/
theorem pass_adds (hq : ∀ b ∈ q.firstAction?, b.delta? = none) (run : List UInt8) :
    (acts (run.map .add) q).pass policies =
      acts ((fuseDeltas policies.cell run).map .add) (q.pass policies) := by
  have hnone : ∀ x, ∀ b ∈ q.firstAction?, (Action.add (deltaOf x)).fuse? policies b = none :=
    fun x b hb => fuse?_add_eq_none (hq b hb) (deltaOf x)
  obtain ⟨tape, cell⟩ := policies
  cases cell with
  | wrap =>
    have hrun : run.map Action.add =
        (run.map fun d => (d.toNat : Int)).map fun x => .add (deltaOf x) := by
      rw [List.map_map]
      exact List.map_congr_left fun d _ => congrArg Action.add (deltaOf_toNat d).symm
    have hfuse : ∀ x y, (Action.add (deltaOf x)).fuse? ⟨tape, .wrap⟩ (.add (deltaOf y)) =
        some (.add (deltaOf (x + y))) := by
      intro x y
      rw [← deltaOf_add]
      rfl
    rw [hrun, pass_summed hfuse rfl _ hnone, keep_eq_acts, Action.isIdle]
    simp only [beq_iff_eq, fuseDeltas, apply_ite (List.map Action.add), List.map_nil,
      List.map_cons]
  | clamp =>
    have hrun : run.map Action.add = (run.map signed).map fun x => .add (deltaOf x) := by
      rw [List.map_map]
      exact List.map_congr_left fun d _ => congrArg Action.add (deltaOf_signed d).symm
    have hfits : ∀ x ∈ run.map signed, fitsDelta x = true :=
      List.forall_mem_map.2 fun d _ => fitsDelta_signed d
    rw [hrun, (saturates_add tape).pass_acts rfl hnone hfits, fuseDeltas, List.map_map]
    rfl

end Program

/-! ## The longest runs -/

namespace Grouped

variable {policies : Policies} {g : Grouped}

theorem program_push (a : Action) (g : Grouped) : (g.push a).program = .act a g.program := by
  cases a <;> cases g <;> rfl

/-- An action joins the run of its kind where there is one, so no run is cut in
two. -/
theorem IsMaximal.push (h : g.IsMaximal) (a : Action) : (g.push a).IsMaximal := by
  cases a with
  | move n =>
    cases g with
    | moves shifts g => exact ⟨List.cons_ne_nil _ _, h.2⟩
    | nil | adds | output | input | loop => exact ⟨List.cons_ne_nil _ _, rfl, h⟩
  | add d =>
    cases g with
    | adds deltas g => exact ⟨List.cons_ne_nil _ _, h.2⟩
    | nil | moves | output | input | loop => exact ⟨List.cons_ne_nil _ _, rfl, h⟩
  | output | input => exact h

theorem push_move (hg : g.beginsWithMoves = false) (n : Int) : g.push (.move n) = moves [n] g := by
  cases g with
  | moves => cases hg
  | nil | adds | output | input | loop => rfl

theorem push_add (hg : g.beginsWithAdds = false) (d : UInt8) : g.push (.add d) = adds [d] g := by
  cases g with
  | adds => cases hg
  | nil | moves | output | input | loop => rfl

/-- Actions of one kind in front are a run, if one of them alone would be. -/
theorem foldr_push {α : Type} (mk : α → Action) (run : List α → Grouped)
    (hone : ∀ x, g.push (mk x) = run [x]) (hmore : ∀ x xs, (run xs).push (mk x) = run (x :: xs))
    {xs : List α} (hxs : xs ≠ []) : (xs.map mk).foldr push g = run xs := by
  induction xs with
  | nil => exact absurd rfl hxs
  | cons x xs ih =>
    rw [List.map_cons, List.foldr_cons]
    cases xs with
    | nil => exact hone x
    | cons y xs => rw [ih (List.cons_ne_nil _ _), hmore]

/-- Where no run of moves comes first, no move does. -/
theorem shift?_of_mem_firstAction? (h : g.IsMaximal) (hg : g.beginsWithMoves = false) :
    ∀ b ∈ g.program.firstAction?, b.shift? = none := by
  intro b hb
  cases g with
  | moves => cases hg
  | adds deltas g =>
    obtain ⟨d, deltas, rfl⟩ := List.exists_cons_of_ne_nil h.1
    cases hb
    rfl
  | output | input =>
    cases hb
    rfl
  | nil | loop => cases hb

theorem delta?_of_mem_firstAction? (h : g.IsMaximal) (hg : g.beginsWithAdds = false) :
    ∀ b ∈ g.program.firstAction?, b.delta? = none := by
  intro b hb
  cases g with
  | adds => cases hg
  | moves shifts g =>
    obtain ⟨n, shifts, rfl⟩ := List.exists_cons_of_ne_nil h.1
    cases hb
    rfl
  | output | input =>
    cases hb
    rfl
  | nil | loop => cases hb

/-- **A pass fuses the longest runs**, and treats the bodies of loops
alike. -/
theorem IsMaximal.pass_program (h : g.IsMaximal) :
    g.program.pass policies = g.fused policies := by
  induction g with
  | nil => rfl
  | moves shifts g ih =>
    obtain ⟨-, hg, hmax⟩ := h
    rw [program, Program.pass_moves (shift?_of_mem_firstAction? hmax hg), ih hmax, fused]
  | adds deltas g ih =>
    obtain ⟨-, hg, hmax⟩ := h
    rw [program, Program.pass_adds (delta?_of_mem_firstAction? hmax hg), ih hmax, fused]
  | output g ih | input g ih =>
    rw [program, Program.pass_act, Program.fuseFrom_of_not_isSilent rfl, ih h, fused]
  | loop b g ihb ih => rw [program, Program.pass_loop, ihb h.1, ih h.2, fused]

end Grouped

namespace Program

theorem grouped_acts (as : List Action) (p : Program) :
    (acts as p).grouped = as.foldr Grouped.push p.grouped := by
  induction as with
  | nil => rfl
  | cons a as ih => rw [acts_cons, grouped, ih, List.foldr_cons]

/-- Splitting loses nothing. -/
theorem program_grouped (p : Program) : p.grouped.program = p := by
  induction p with
  | nil => rfl
  | act a r ih => rw [grouped, Grouped.program_push, ih]
  | loop b r ihb ih => rw [grouped, Grouped.program, ihb, ih]

theorem isMaximal_grouped (p : Program) : p.grouped.IsMaximal := by
  induction p with
  | nil => trivial
  | act a r ih => exact ih.push a
  | loop b r ihb ih => exact ⟨ihb, ih⟩

/-- Longest runs are found again. -/
theorem grouped_program {g : Grouped} (h : g.IsMaximal) : g.program.grouped = g := by
  induction g with
  | nil => rfl
  | moves shifts g ih =>
    obtain ⟨hs, hg, hmax⟩ := h
    rw [Grouped.program, grouped_acts, ih hmax]
    exact Grouped.foldr_push .move (.moves · g) (Grouped.push_move hg) (fun _ _ => rfl) hs
  | adds deltas g ih =>
    obtain ⟨hd, hg, hmax⟩ := h
    rw [Grouped.program, grouped_acts, ih hmax]
    exact Grouped.foldr_push .add (.adds · g) (Grouped.push_add hg) (fun _ _ => rfl) hd
  | output g ih | input g ih => rw [Grouped.program, grouped, ih h, Grouped.push]
  | loop b g ihb ih => rw [Grouped.program, grouped, ihb h.1, ih h.2]

/-- **A program is split into its longest runs in one way.** -/
theorem eq_grouped_iff {g : Grouped} {p : Program} :
    g = p.grouped ↔ g.program = p ∧ g.IsMaximal := by
  constructor
  · rintro rfl
    exact ⟨program_grouped p, isMaximal_grouped p⟩
  · rintro ⟨rfl, h⟩
    exact (grouped_program h).symm

/-- The pass is the fusion of the longest runs. -/
theorem pass_eq_fused (policies : Policies) (p : Program) :
    p.pass policies = p.grouped.fused policies := by
  rw [← (isMaximal_grouped p).pass_program, program_grouped]

end Program

end Brainfuck
