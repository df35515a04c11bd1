import Brainfuck.Proofs.Execution.Symmetry
import Brainfuck.Proofs.Fusion.Canonical
import Brainfuck.Proofs.Fusion.Soundness
import Brainfuck.Proofs.Printing.Units
/-!
# Optimized programs take fewer instructions

That the optimized program takes no more instructions than the program is
part of the simulation. Here it is told where it takes fewer: where the run
comes to moves and adds in a row that a pass makes fewer, or to a loop that
it leaves out (`Program.BeginsShortened`).

In `Trails` the fused program may be behind in its count by any number. Where
the run comes to such a place, the two sides can move to where `Trails` would
hold with an instruction more counted on the fused side (`Gains`). In a row,
that is at an action that changes nothing (`gains_of_isIdle`) or at the first
that fuses with the next one (`gains_of_pair`). What is so gained is kept up
to the end, since the count does nothing to a run (`Machine.isSymmetry_tick`).
-/

namespace Brainfuck

open Program

variable {σ ε : Type} {device : Device (StateM σ) ε}
variable {assumed actual : Policies}

/-! ## Where a pass shortens a program -/

/-- A program begins with what a pass makes shorter. What it makes of a row is
said of the row alone, since no other instruction has a part in it
(`Program.pass_acts`). -/
inductive Program.BeginsShortened (policies : Policies) : Program → Prop where
  /-- Moves and adds in a row, of which fewer are left: some are fused, or
  change nothing and are left out. -/
  | row {as : List Action} {r : Program} :
      (∀ a ∈ as, a.isSilent = true) → ((acts as nil).pass policies).length < as.length →
      BeginsShortened policies (acts as r)
  /-- A loop that is left out, whether it would be entered or not. -/
  | loop {b r : Program} : b.pass policies = nil → BeginsShortened policies (loop b r)

/-- The pass makes the same of a row wherever it stands, as long as no move
or add follows. -/
theorem Program.pass_acts {policies : Policies} {r : Program}
    (hr : ∀ b ∈ r.firstAction?, b.isSilent = false) (as : List Action) :
    (acts as r).pass policies = (acts as nil).pass policies ++ r.pass policies := by
  suffices h : ∀ a, (acts as r).fuseFrom policies a =
      (acts as nil).fuseFrom policies a ++ r.pass policies from h (.move 0)
  induction as with
  | nil =>
    intro a
    rw [acts_nil, acts_nil, fuseFrom_nil, keep_append, nil_append]
    cases r with
    | nil => rfl
    | act b r =>
      have hf : a.fuse? policies b = none := Action.fuse?_eq_none_of_right (hr b rfl)
      rw [fuseFrom_of_not_fuse? hf, pass_act]
    | loop b r => rw [fuseFrom_loop, pass_loop]
  | cons b as ih =>
    intro a
    rw [acts_cons, acts_cons]
    cases hf : a.fuse? policies b with
    | some c => rw [fuseFrom_of_fuse? hf, fuseFrom_of_fuse? hf, ih]
    | none => rw [fuseFrom_of_not_fuse? hf, fuseFrom_of_not_fuse? hf, ih, keep_append]

theorem Program.toList_acts (as : List Action) : (acts as nil).toList = as.map .act := by
  induction as with
  | nil => rfl
  | cons a as ih => rw [acts_cons, toList, ih, List.map_cons]

/-- A row that a pass shortens is not normal. -/
theorem Program.not_isNormal_acts {policies : Policies} {as : List Action}
    (h : ((acts as nil).pass policies).length < as.length) :
    ¬ (acts as nil).IsNormal policies := by
  intro hn
  have hstable : (acts as nil).pass policies = acts as nil := hn.isStable
  rw [hstable, length, toList_acts, List.length_map] at h
  exact Nat.lt_irrefl _ h

/-! ## Instructions gained -/

/-- The two sides move to where the second is behind by an instruction more
than it has to be. -/
def Gains (assumed actual : Policies) (device : Device (StateM σ) ε) (c d : Config) (s : σ) :
    Prop :=
  ∃ n c' k d' s', Moves actual device n c s c' s' ∧ Moves actual device k d s d' s' ∧
    Trails assumed actual c' (d'.map Machine.tick)

theorem Gains.of_moves {n k : Nat} {c c' d d' : Config} {s s' : σ}
    (hc : Moves actual device n c s c' s') (hd : Moves actual device k d s d' s')
    (h : Gains assumed actual device c' d' s') : Gains assumed actual device c d s := by
  obtain ⟨n', c'', k', d'', s'', hc', hd', htr⟩ := h
  exact ⟨n + n', c'', k + k', d'', s'', hc.trans hc', hd.trans hd', htr⟩

theorem Outcome.steps_map_tick (outcome : Outcome ε) :
    (outcome.map Machine.tick).machine.steps = outcome.machine.steps + 1 := by
  cases outcome <;> rfl

theorem Outcome.agrees_map_tick (outcome : Outcome ε) :
    outcome.Agrees (outcome.map Machine.tick) := by
  cases outcome <;> exact ⟨rfl, rfl⟩

/-- **What is gained is kept to the end.** -/
theorem Gains.ends (h : assumed.Admits actual) {c d : Config} {s t : σ} {outcome : Outcome ε}
    (hg : Gains assumed actual device c d s) (he : Ends actual device c s outcome t) :
    ∃ outcome', Ends actual device d s outcome' t ∧ outcome'.Agrees outcome ∧
      outcome'.machine.steps < outcome.machine.steps := by
  obtain ⟨n, c', k, d', s', hc, hd, htr⟩ := hg
  obtain ⟨fuel, he⟩ := he
  obtain ⟨behind, he', ho⟩ := htr.ends h ⟨_, (hc.runFor_sub he).2⟩
  obtain ⟨outcome', rfl, hd'⟩ := (Machine.isSymmetry_tick actual).ends_iff.1 he'
  have hle := ho.2.2
  rw [outcome'.steps_map_tick] at hle
  exact ⟨outcome', hd.ends hd', outcome'.agrees_map_tick.trans ho.agrees, hle⟩

/-! ## Where instructions are gained -/

/-- A silent action moves on to the rest. -/
theorem moves_of_isSilent (actual : Policies) (device : Device (StateM σ) ε) {b : Action}
    (h : b.isSilent = true) (r : Program) (loops : List Frame) (machine : Machine) (s : σ) :
    Moves actual device 1 ⟨.act b r, loops, machine⟩ s
      ⟨r, loops, b.tapeAfter actual machine.tape, machine.steps + 1⟩ s :=
  .single (step_act (perform_of_isSilent h machine s))

section Gain

variable {a : Action} {q : Program} {loops loops' : List Frame} {slow fast : Machine}
  (ha : a.isSilent = true) (hb : Below assumed loops q loops')
  (ht : slow.tape = a.tapeAfter actual fast.tape) (hs : fast.steps + a.cost ≤ slow.steps)
include ha hb ht hs

/-- An instruction is gained at a loop that is left out. -/
theorem gains_of_dropped {body : Program} (hd : body.pass assumed = nil) (after : Program) (s : σ) :
    Gains assumed actual device ⟨.loop body after, loops, slow⟩
      ⟨(Program.loop body after).fuseFrom assumed a ++ q, loops', fast⟩ s := by
  rw [fuseFrom_loop, hd, keepLoop_nil, keep_append]
  obtain ⟨fast', hw, hm⟩ := moves_keep device ha (after.pass assumed ++ q) loops' s ht hs
  have hw' : fast'.tick.Within slow.tick := ⟨hw.1, Nat.succ_le_succ hw.2⟩
  exact ⟨1, _, a.cost, _, s, .single (step_loop ..), hm,
    trails_resume_of_dropped (f := ⟨body, after⟩) hd hb hw'⟩

/-- An instruction is gained at an action that changes nothing. -/
theorem gains_of_isIdle {b : Action} (hbs : b.isSilent = true) (hi : b.isIdle = true) (r : Program)
    (s : σ) :
    Gains assumed actual device ⟨.act b r, loops, slow⟩
      ⟨(Program.act b r).fuseFrom assumed a ++ q, loops', fast⟩ s := by
  have hmove := moves_of_isSilent actual device hbs r loops slow s
  rw [Action.tapeAfter_of_isIdle hi] at hmove
  cases hf : a.fuse? assumed b with
  | some c =>
    -- the action behind stays what it is
    obtain rfl : c = a := Action.fuse?_of_isIdle_right hi hf
    rw [fuseFrom_of_fuse? hf]
    refine ⟨1, _, 0, _, s, hmove, .refl _ _, .intro ha hb ht ?_⟩
    show fast.steps + 1 + c.cost ≤ slow.steps + 1
    omega
  | none =>
    rw [fuseFrom_of_not_fuse? hf, keep_append]
    obtain ⟨fast', hw, hm⟩ := moves_keep device ha (r.fuseFrom assumed b ++ q) loops' s ht hs
    have hc : b.cost = 0 := if_pos hi
    refine ⟨1, _, a.cost, _, s, hmove, hm, .intro hbs hb ?_ ?_⟩
    · rw [Action.tapeAfter_of_isIdle hi]
      exact hw.1.symm
    · have hle := hw.2
      show fast'.steps + 1 + b.cost ≤ slow.steps + 1
      omega

omit ha in
/-- An instruction is gained where the action behind changes something and is
fused with the next one. -/
theorem gains_of_fuse? {b c : Action} (hi : a.isIdle = false) (hf : a.fuse? assumed b = some c)
    (h : assumed.Admits actual) (r : Program) (s : σ) :
    Gains assumed actual device ⟨.act b r, loops, slow⟩
      ⟨(Program.act b r).fuseFrom assumed a ++ q, loops', fast⟩ s := by
  obtain ⟨-, hbs, hcs⟩ := Action.isSilent_of_fuse? hf
  rw [fuseFrom_of_fuse? hf]
  refine ⟨1, _, 0, _, s, moves_of_isSilent actual device hbs r loops slow s, .refl _ _,
    .intro hcs hb ?_ ?_⟩
  · rw [ht]
    exact Action.tapeAfter_fuse? h hf fast.tape
  · have ha : a.cost = 1 := by rw [Action.cost, if_neg (by simp [hi])]
    have hc := c.cost_le
    show fast.steps + 1 + c.cost ≤ slow.steps + 1
    omega

/-- An instruction is gained at two actions that fuse: the first of them is
fused with those before it, or is what the fused program is behind by when
the second comes. -/
theorem gains_of_pair {b b' c : Action} (hi : b.isIdle = false) (hf' : b.fuse? assumed b' = some c)
    (h : assumed.Admits actual) (r : Program) (s : σ) :
    Gains assumed actual device ⟨.act b (.act b' r), loops, slow⟩
      ⟨(Program.act b (.act b' r)).fuseFrom assumed a ++ q, loops', fast⟩ s := by
  have hbs := (Action.isSilent_of_fuse? hf').1
  have hmove := moves_of_isSilent actual device hbs (.act b' r) loops slow s
  cases hf : a.fuse? assumed b with
  | some d =>
    cases hia : a.isIdle with
    | false => exact gains_of_fuse? hb ht hs hia hf h (.act b' r) s
    | true =>
      obtain rfl : d = b := Action.fuse?_of_isIdle hia hf
      rw [fuseFrom_of_fuse? hf]
      rw [Action.tapeAfter_of_isIdle hia] at ht
      refine .of_moves hmove (.refl _ _) (gains_of_fuse? hb ?_ ?_ hi hf' h r s)
      · rw [ht]
      · have hc := d.cost_le
        show fast.steps + d.cost ≤ slow.steps + 1
        omega
  | none =>
    rw [fuseFrom_of_not_fuse? hf, keep_append]
    obtain ⟨fast', hw, hm⟩ := moves_keep device ha
      ((Program.act b' r).fuseFrom assumed b ++ q) loops' s ht hs
    refine .of_moves hmove hm (gains_of_fuse? hb ?_ ?_ hi hf' h r s)
    · rw [hw.1]
    · have hc := b.cost_le
      have hle := hw.2
      show fast'.steps + b.cost ≤ slow.steps + 1
      omega

end Gain

/-- **Somewhere in a row that is not normal an instruction is gained.** The
induction is on the row: its first action changes nothing, or fuses with the
second, or the rest is not normal. -/
theorem gains_of_row (h : assumed.Admits actual) {as : List Action}
    (has : ∀ a ∈ as, a.isSilent = true) (hn : ¬ (acts as nil).IsNormal assumed) {r : Program}
    {loops : List Frame} {slow : Machine} {d : Config}
    (htr : Trails assumed actual ⟨acts as r, loops, slow⟩ d) (s : σ) :
    Gains assumed actual device ⟨acts as r, loops, slow⟩ d s := by
  induction as generalizing slow d with
  | nil => exact absurd trivial hn
  | cons b as ih =>
    have hbs := has b (List.mem_cons_self ..)
    cases hi : b.isIdle with
    | true =>
      obtain @⟨a, p, q, loops, loops', slow, fast, ha, hb, ht, hle⟩ := htr
      exact gains_of_isIdle ha hb ht hle hbs hi (acts as r) s
    | false =>
      by_cases hrest : (acts as nil).IsNormal assumed
      · -- so the first action fuses with the second
        obtain ⟨b', as, c, rfl, hf⟩ : ∃ b' as' c, as = b' :: as' ∧ b.fuse? assumed b' = some c := by
          cases as with
          | nil =>
            have hone : (act b nil).IsNormal assumed :=
              isNormal_act_iff.2 ⟨hi, by simp [firstAction?], trivial⟩
            exact absurd hone hn
          | cons b' as =>
            cases hf : b.fuse? assumed b' with
            | some c => exact ⟨b', as, c, rfl, hf⟩
            | none =>
              refine absurd (isNormal_act_iff.2 ⟨hi, fun x hx => ?_, hrest⟩) hn
              cases hx
              exact hf
        obtain @⟨a, p, q, loops, loops', slow, fast, ha, hb, ht, hle⟩ := htr
        exact gains_of_pair ha hb ht hle hi hf h (acts as r) s
      · have hmove := moves_of_isSilent actual device hbs (acts as r) loops slow s
        obtain ⟨k, d', hm, htr'⟩ := htr.moves h hmove
        exact .of_moves hmove hm
          (ih (fun a ha => has a (List.mem_cons_of_mem _ ha)) hrest htr')

/-- **Where the run comes to what a pass shortens, an instruction is
gained.** -/
theorem Program.BeginsShortened.gains (h : assumed.Admits actual) {c d : Config}
    (hc : c.pending.BeginsShortened assumed) (htr : Trails assumed actual c d) (s : σ) :
    Gains assumed actual device c d s := by
  obtain ⟨pending, loops, slow⟩ := c
  cases hc with
  | row has hlt => exact gains_of_row h has (not_isNormal_acts hlt) htr s
  | loop hd =>
    obtain @⟨a, p, q, loops, loops', slow, fast, ha, hb, ht, hle⟩ := htr
    exact gains_of_dropped ha hb ht hle hd _ s

/-! ## Whole runs -/

/-- The run of the program comes to what the first pass shortens. -/
def RunsShortened (assumed actual : Policies) (device : Device (StateM σ) ε) (p : Program)
    (machine : Machine) (s : σ) : Prop :=
  ∃ n c u, Moves actual device n (.start p machine) s c u ∧ c.pending.BeginsShortened assumed

/-- Where the run comes to what a pass shortens, the pass saves an
instruction. -/
theorem ends_pass_of_runsShortened (h : assumed.Admits actual) {p : Program} {machine : Machine}
    {s t : σ} {outcome : Outcome ε} (hr : RunsShortened assumed actual device p machine s)
    (he : Ends actual device (.start p machine) s outcome t) :
    ∃ outcome', Ends actual device (.start (p.pass assumed) machine) s outcome' t ∧
      outcome'.Agrees outcome ∧ outcome'.machine.steps < outcome.machine.steps := by
  obtain ⟨n, c, u, hm, hc⟩ := hr
  obtain ⟨k, d, hd, htr⟩ := (Trails.start p machine).moves h hm
  exact (Gains.of_moves hm hd (hc.gains h htr u)).ends h he

theorem refines_iterate (h : assumed.Admits actual) (p : Program) (n : Nat) :
    Refines actual device p ((pass assumed)^[n] p) := by
  induction n with
  | zero => exact .refl p
  | succ n ih =>
    rw [Function.iterate_succ_apply']
    exact ih.trans (refines_pass h _)

/-- At least one pass is made, whatever the budget. -/
theorem Program.exists_optimize_eq_iterate_pass (policies : Policies) (n : Nat) (p : Program) :
    ∃ m, p.optimize policies (.ofNat n) = (pass policies)^[m] (p.pass policies) := by
  cases n with
  | zero =>
    obtain ⟨k, hk, hstable⟩ : ∃ k ≤ p.size, StableAfter policies k p := exists_stableAfter p
    refine ⟨k, ?_⟩
    rw [← Function.iterate_succ_apply, hstable.iterate_of_le (Nat.le_succ k)]
    exact hstable.optimize_untilStable hk
  | succ n =>
    refine ⟨n, ?_⟩
    rw [← Function.iterate_succ_apply]
    exact optimize_atMost (n + 1) p

/-- **Optimizing never makes a run longer.** Where a run of the program ends,
normally or with a failure, the run of the optimized program ends alike after
no more instructions, and after fewer if the run of the program has come to
anything that the first pass shortens. -/
theorem optimize_steps_le (h : assumed.Admits actual) (n : Nat) (p : Program) (machine : Machine)
    (s : σ) {outcome : Outcome ε} {t : σ}
    (he : Ends actual device (.start p machine) s outcome t) :
    ∃ outcome', Ends actual device (.start (p.optimize assumed (.ofNat n)) machine) s outcome' t ∧
      outcome'.Agrees outcome ∧ outcome'.machine.steps ≤ outcome.machine.steps ∧
      (RunsShortened assumed actual device p machine s →
        outcome'.machine.steps < outcome.machine.steps) := by
  obtain ⟨m, hm⟩ := exists_optimize_eq_iterate_pass assumed n p
  have hrest : Refines actual device (p.pass assumed) (p.optimize assumed (.ofNat n)) := by
    rw [hm]
    exact refines_iterate h (p.pass assumed) m
  obtain ⟨outcome', he', ho⟩ := (refines_pass h p).ends he
  obtain ⟨outcome'', he'', ho'⟩ := hrest.ends he'
  refine ⟨outcome'', he'', (ho'.trans ho).agrees, (ho'.trans ho).2.2, fun hr => ?_⟩
  obtain ⟨saved, hsaved, -, hlt⟩ := ends_pass_of_runsShortened h hr he
  obtain ⟨rfl, -⟩ := he'.unique hsaved
  exact Nat.lt_of_le_of_lt ho'.2.2 hlt

/-- On clamped cells `readTwice` comes to its inner loop, which a pass leaves
out, after four moves, with a zero cell. Up to the read that fails, the
program takes eight instructions, and the optimized program fewer. -/
theorem optimize_steps_le_readTwice :
    Policies.Admits ⟨.wrap, .clamp⟩ ⟨.wrap, .clamp⟩ ∧
    Ends ⟨.wrap, .clamp⟩ Buffer.device (.start readTwice ⟨.blank 2 (by decide), 0⟩) ⟨['a'], ""⟩
      (.failed (.device .exhausted) ⟨⟨#[97, 0], 0, by decide⟩, 8⟩) ⟨[], "".push 'a'⟩ ∧
    RunsShortened ⟨.wrap, .clamp⟩ ⟨.wrap, .clamp⟩ Buffer.device readTwice
      ⟨.blank 2 (by decide), 0⟩ ⟨['a'], ""⟩ ∧
    ∃ outcome', Ends ⟨.wrap, .clamp⟩ Buffer.device
      (.start (readTwice.optimize ⟨.wrap, .clamp⟩ (.ofNat 0)) ⟨.blank 2 (by decide), 0⟩)
      ⟨['a'], ""⟩ outcome' ⟨[], "".push 'a'⟩ ∧
      outcome'.Agrees (.failed (.device .exhausted) ⟨⟨#[97, 0], 0, by decide⟩, 8⟩) ∧
      outcome'.machine.steps < 8 := by
  have hadmits : Policies.Admits ⟨.wrap, .clamp⟩ ⟨.wrap, .clamp⟩ := by decide
  have hends : Ends ⟨.wrap, .clamp⟩ Buffer.device (.start readTwice ⟨.blank 2 (by decide), 0⟩)
      ⟨['a'], ""⟩ (.failed (.device .exhausted) ⟨⟨#[97, 0], 0, by decide⟩, 8⟩)
      ⟨[], "".push 'a'⟩ := ⟨20, rfl⟩
  have hshort : RunsShortened ⟨.wrap, .clamp⟩ ⟨.wrap, .clamp⟩ Buffer.device readTwice
      ⟨.blank 2 (by decide), 0⟩ ⟨['a'], ""⟩ :=
    ⟨4, _, _, .head rfl (.head rfl (.head rfl (.head rfl (.refl _ _)))), .loop rfl⟩
  obtain ⟨outcome', he', ho, -, hlt⟩ := optimize_steps_le hadmits 0 readTwice _ _ hends
  exact ⟨hadmits, hends, hshort, outcome', he', ho, hlt hshort⟩

end Brainfuck
