import Brainfuck.Execution.BigStep
/-!
# Moves of a configuration

`Moves n c s c' s'` says that `n` moves lead from one configuration to
another. `step_cases` and `step_ended_cases` list what a single move can
be; later files read a run through them and never unfold `Config.step`.
`runFor_eq_none_iff` and `ends_iff` tie the relation to `runFor`: a run
has not ended exactly when there is a configuration to go on with, and it
ends where a configuration is reached whose next move is the last.
-/

namespace Brainfuck

variable {σ ε : Type} {policies : Policies} {device : Device (StateM σ) ε}

/-! ## A single move -/

theorem step_frame (f : Frame) (loops : List Frame) (machine : Machine) (s : σ) :
    Config.step policies device ⟨.nil, f :: loops, machine⟩ s =
      (.next (f.resume loops machine), s) := rfl

theorem step_loop (body after : Program) (loops : List Frame) (machine : Machine) (s : σ) :
    Config.step policies device ⟨.loop body after, loops, machine⟩ s =
      (.next (Frame.resume ⟨body, after⟩ loops machine.tick), s) := rfl

theorem step_act {a : Action} {rest : Program} {loops : List Frame} {machine next : Machine}
    {s t : σ} (h : device.perform policies a machine s = (.finished next, t)) :
    Config.step policies device ⟨.act a rest, loops, machine⟩ s =
      (.next ⟨rest, loops, next⟩, t) := by
  simp only [Config.step, bind, StateT.bind, h]
  rfl

theorem step_act_failed {a : Action} {rest : Program} {loops : List Frame}
    {machine next : Machine} {s t : σ} {f : Failure ε}
    (h : device.perform policies a machine s = (.failed f next, t)) :
    Config.step policies device ⟨.act a rest, loops, machine⟩ s =
      (.ended (.failed f next), t) := by
  simp only [Config.step, bind, StateT.bind, h]
  rfl

/-- **What a move that goes on can be**: the end of a loop's body, a loop
that is reached, or an action that succeeds. -/
theorem step_cases {c c' : Config} {s s' : σ}
    (h : Config.step policies device c s = (.next c', s')) :
    (∃ f loops machine, c = ⟨.nil, f :: loops, machine⟩ ∧ c' = f.resume loops machine ∧
      s' = s) ∨
    (∃ body after loops machine, c = ⟨.loop body after, loops, machine⟩ ∧
      c' = Frame.resume ⟨body, after⟩ loops machine.tick ∧ s' = s) ∨
    (∃ a rest loops machine next, c = ⟨.act a rest, loops, machine⟩ ∧
      device.perform policies a machine s = (.finished next, s') ∧
      c' = ⟨rest, loops, next⟩) := by
  obtain ⟨pending, loops, machine⟩ := c
  cases pending with
  | nil =>
    cases loops with
    | nil => cases h
    | cons f loops =>
      rw [step_frame] at h
      cases h
      exact Or.inl ⟨f, loops, machine, rfl, rfl, rfl⟩
  | loop body after =>
    rw [step_loop] at h
    cases h
    exact Or.inr (Or.inl ⟨body, after, loops, machine, rfl, rfl, rfl⟩)
  | act a rest =>
    rcases hp : device.perform policies a machine s with ⟨next | ⟨f, next⟩, t⟩
    · rw [step_act hp] at h
      cases h
      exact Or.inr (Or.inr ⟨a, rest, loops, machine, next, rfl, hp, rfl⟩)
    · rw [step_act_failed hp] at h
      cases h

/-- **What the last move can be**: nothing is left to do, or an action
fails. -/
theorem step_ended_cases {c : Config} {s t : σ} {outcome : Outcome ε}
    (h : Config.step policies device c s = (.ended outcome, t)) :
    (∃ machine, c = ⟨.nil, [], machine⟩ ∧ outcome = .finished machine ∧ t = s) ∨
    (∃ a rest loops machine f next, c = ⟨.act a rest, loops, machine⟩ ∧
      device.perform policies a machine s = (.failed f next, t) ∧
      outcome = .failed f next) := by
  obtain ⟨pending, loops, machine⟩ := c
  cases pending with
  | nil =>
    cases loops with
    | nil =>
      cases h
      exact Or.inl ⟨machine, rfl, rfl, rfl⟩
    | cons f loops =>
      rw [step_frame] at h
      cases h
  | loop body after =>
    rw [step_loop] at h
    cases h
  | act a rest =>
    rcases hp : device.perform policies a machine s with ⟨next | ⟨f, next⟩, u⟩
    · rw [step_act hp] at h
      cases h
    · rw [step_act_failed hp] at h
      cases h
      exact Or.inr ⟨a, rest, loops, machine, f, next, rfl, hp, rfl⟩

/-! ## Several moves -/

/-- `n` moves lead from a configuration, with the device in some state, to
another. -/
inductive Moves (policies : Policies) (device : Device (StateM σ) ε) :
    Nat → Config → σ → Config → σ → Prop where
  | refl (c : Config) (s : σ) : Moves policies device 0 c s c s
  | head {n : Nat} {c c' c'' : Config} {s s' s'' : σ} :
      Config.step policies device c s = (.next c', s') →
      Moves policies device n c' s' c'' s'' → Moves policies device (n + 1) c s c'' s''

namespace Moves

variable {m n : Nat} {c c' c'' : Config} {s s' s'' : σ}

/-- One move. -/
theorem single (h : Config.step policies device c s = (.next c', s')) :
    Moves policies device 1 c s c' s' :=
  .head h (.refl c' s')

/-- Moves follow one another. -/
theorem trans (h : Moves policies device m c s c' s') (h' : Moves policies device n c' s' c'' s'') :
    Moves policies device (m + n) c s c'' s'' := by
  induction h with
  | refl => rwa [Nat.zero_add]
  | head hs _ ih =>
    rw [Nat.add_right_comm]
    exact .head hs (ih h')

/-- The run from the start is the run from where the moves have led. -/
theorem runFor_add (h : Moves policies device n c s c' s') (fuel : Nat) :
    runFor policies device (n + fuel) c s = runFor policies device fuel c' s' := by
  induction h with
  | refl => rw [Nat.zero_add]
  | head hs _ ih =>
    rw [Nat.add_right_comm, runFor]
    simp only [bind, StateT.bind, hs]
    exact ih

end Moves

/-! ## Moves and bounded runs -/

variable {n fuel : Nat} {c c' : Config} {s s' t : σ} {outcome : Outcome ε}

theorem runFor_of_step_ended (h : Config.step policies device c s = (.ended outcome, t)) :
    runFor policies device (fuel + 1) c s = (some outcome, t) := by
  rw [runFor]
  simp only [bind, StateT.bind, h]
  rfl

/-- **A run has not ended exactly when there is a configuration to go on
with.** -/
theorem runFor_eq_none_iff :
    runFor policies device fuel c s = (none, t) ↔ ∃ c', Moves policies device fuel c s c' t := by
  constructor
  · intro h
    induction fuel generalizing c s with
    | zero =>
      cases h
      exact ⟨c, .refl c _⟩
    | succ fuel ih =>
      rcases hs : Config.step policies device c s with ⟨c₁ | outcome, s₁⟩
      · rw [Nat.add_comm, (Moves.single hs).runFor_add] at h
        obtain ⟨c', hc'⟩ := ih h
        exact ⟨c', .head hs hc'⟩
      · rw [runFor_of_step_ended hs] at h
        cases h
  · rintro ⟨c', h⟩
    exact h.runFor_add 0

/-- **A run ends where a configuration is reached whose next move is the
last.** -/
theorem ends_iff : Ends policies device c s outcome t ↔
    ∃ n c' s', Moves policies device n c s c' s' ∧
      Config.step policies device c' s' = (.ended outcome, t) := by
  constructor
  · rintro ⟨fuel, h⟩
    induction fuel generalizing c s with
    | zero => cases h
    | succ fuel ih =>
      rcases hs : Config.step policies device c s with ⟨c₁ | outcome₁, s₁⟩
      · rw [Nat.add_comm, (Moves.single hs).runFor_add] at h
        obtain ⟨n, c', s', hm, he⟩ := ih h
        exact ⟨n + 1, c', s', .head hs hm, he⟩
      · rw [runFor_of_step_ended hs] at h
        cases h
        exact ⟨0, c, s, .refl c s, hs⟩
  · rintro ⟨n, c', s', hm, he⟩
    exact ⟨n + 1, (hm.runFor_add 1).trans (runFor_of_step_ended he)⟩

/-- What a run comes to after some moves, it comes to from the start. -/
theorem Moves.ends (hm : Moves policies device n c s c' s')
    (h : Ends policies device c' s' outcome t) : Ends policies device c s outcome t := by
  obtain ⟨fuel, h⟩ := h
  exact ⟨n + fuel, (hm.runFor_add fuel).trans h⟩

/-- A run that ends within a bound has moved less often, and ends within
what is left of the bound. -/
theorem Moves.runFor_sub (hm : Moves policies device n c s c' s')
    (h : runFor policies device fuel c s = (some outcome, t)) :
    n ≤ fuel ∧ runFor policies device (fuel - n) c' s' = (some outcome, t) := by
  rcases Nat.le_total n fuel with hle | hle
  · refine ⟨hle, ?_⟩
    rw [← hm.runFor_add, Nat.add_sub_cancel' hle]
    exact h
  · -- a run that still moves after the bound has not ended within it
    have hn : runFor policies device n c s = (none, s') := hm.runFor_add 0
    rw [runFor_mono hle h] at hn
    cases hn

end Brainfuck
