import Brainfuck.Execution
/-!
# Running a program, by its structure

`Exec` says what running a program comes to without a bound and without
frames: a sequence runs from left to right up to the first failure, an
action is counted and performed, and a loop is counted when it is reached
and then repeats its body as long as the current cell is not zero, with a
test before every round and no count for it.

`Ends` says the same of `runFor`: some bound is large enough. More moves
than needed change nothing (`runFor_mono`), so a run ends in one way only
(`Ends.unique`).
-/

namespace Brainfuck

variable {σ ε : Type} {policies : Policies} {device : Device (StateM σ) ε}

/-! ## By structure -/

/-- What is to be run: a program, or a loop at its test and the program
after it. -/
inductive Task where
  | program (p : Program)
  | test (body after : Program)
  deriving DecidableEq, Repr

/-- `Exec policies device task machine s outcome t`: the task, started on a
machine with the device in state `s`, comes to the outcome and leaves the
device in state `t`. -/
inductive Exec (policies : Policies) (device : Device (StateM σ) ε) :
    Task → Machine → σ → Outcome ε → σ → Prop where
  /-- Nothing is left to do. -/
  | done {machine : Machine} {s : σ} :
      Exec policies device (.program .nil) machine s (.finished machine) s
  /-- An action succeeds, and the rest runs. -/
  | act {a : Action} {rest : Program} {machine next : Machine} {s t u : σ} {outcome : Outcome ε} :
      device.perform policies a machine s = (.finished next, t) →
      Exec policies device (.program rest) next t outcome u →
      Exec policies device (.program (.act a rest)) machine s outcome u
  /-- An action fails, and nothing more runs. -/
  | actFailed {a : Action} {rest : Program} {machine next : Machine} {s t : σ} {f : Failure ε} :
      device.perform policies a machine s = (.failed f next, t) →
      Exec policies device (.program (.act a rest)) machine s (.failed f next) t
  /-- A loop is reached and counted. -/
  | loop {body after : Program} {machine : Machine} {s t : σ} {outcome : Outcome ε} :
      Exec policies device (.test body after) machine.tick s outcome t →
      Exec policies device (.program (.loop body after)) machine s outcome t
  /-- The current cell is zero: the loop is over. -/
  | leave {body after : Program} {machine : Machine} {s t : σ} {outcome : Outcome ε} :
      machine.tape.isNonzero = false →
      Exec policies device (.program after) machine s outcome t →
      Exec policies device (.test body after) machine s outcome t
  /-- The current cell is not zero: the body runs, and then there is another
  test. -/
  | round {body after : Program} {machine next : Machine} {s t u : σ} {outcome : Outcome ε} :
      machine.tape.isNonzero = true →
      Exec policies device (.program body) machine s (.finished next) t →
      Exec policies device (.test body after) next t outcome u →
      Exec policies device (.test body after) machine s outcome u
  /-- The body fails, and nothing more runs. -/
  | roundFailed {body after : Program} {machine next : Machine} {s t : σ} {f : Failure ε} :
      machine.tape.isNonzero = true →
      Exec policies device (.program body) machine s (.failed f next) t →
      Exec policies device (.test body after) machine s (.failed f next) t

/-! ## By moves -/

/-- A configuration comes to an outcome within some number of moves. -/
def Ends (policies : Policies) (device : Device (StateM σ) ε) (c : Config) (s : σ)
    (outcome : Outcome ε) (t : σ) : Prop :=
  ∃ fuel, runFor policies device fuel c s = (some outcome, t)

theorem runFor_done (fuel : Nat) (machine : Machine) (s : σ) :
    runFor policies device (fuel + 1) ⟨.nil, [], machine⟩ s = (some (.finished machine), s) := rfl

/-- An action that succeeds is followed by the rest. -/
theorem runFor_act {fuel : Nat} {a : Action} {rest : Program} {loops : List Frame}
    {machine next : Machine} {s t : σ}
    (h : device.perform policies a machine s = (.finished next, t)) :
    runFor policies device (fuel + 1) ⟨.act a rest, loops, machine⟩ s =
      runFor policies device fuel ⟨rest, loops, next⟩ t := by
  simp only [runFor, Config.step, bind, StateT.bind, h]
  rfl

/-- An action that fails ends the run. -/
theorem runFor_act_failed {fuel : Nat} {a : Action} {rest : Program} {loops : List Frame}
    {machine next : Machine} {s t : σ} {f : Failure ε}
    (h : device.perform policies a machine s = (.failed f next, t)) :
    runFor policies device (fuel + 1) ⟨.act a rest, loops, machine⟩ s =
      (some (.failed f next), t) := by
  simp only [runFor, Config.step, bind, StateT.bind, h]
  rfl

/-- A run that has ended is not changed by a larger bound. -/
theorem runFor_succ {fuel : Nat} {c : Config} {s t : σ} {outcome : Outcome ε}
    (h : runFor policies device fuel c s = (some outcome, t)) :
    runFor policies device (fuel + 1) c s = (some outcome, t) := by
  induction fuel generalizing c s with
  | zero => cases h
  | succ fuel ih =>
    obtain ⟨pending, loops, machine⟩ := c
    cases pending with
    | nil =>
      cases loops with
      | nil => exact h
      | cons f loops => exact ih h
    | loop body after => exact ih h
    | act a rest =>
      rcases hp : device.perform policies a machine s with ⟨next | ⟨f, next⟩, u⟩
      · rw [runFor_act hp] at h ⊢
        exact ih h
      · rw [runFor_act_failed hp] at h ⊢
        exact h

theorem runFor_mono {fuel more : Nat} (hle : fuel ≤ more) {c : Config} {s t : σ}
    {outcome : Outcome ε} (h : runFor policies device fuel c s = (some outcome, t)) :
    runFor policies device more c s = (some outcome, t) := by
  induction hle with
  | refl => exact h
  | step _ ih => exact runFor_succ ih

/-- A run ends in one way only. -/
theorem Ends.unique {c : Config} {s t t' : σ} {outcome outcome' : Outcome ε}
    (h : Ends policies device c s outcome t) (h' : Ends policies device c s outcome' t') :
    outcome = outcome' ∧ t = t' := by
  obtain ⟨fuel, h⟩ := h
  obtain ⟨fuel', h'⟩ := h'
  have e := runFor_mono (Nat.le_max_left fuel fuel') h
  rw [runFor_mono (Nat.le_max_right fuel fuel') h'] at e
  cases e
  exact ⟨rfl, rfl⟩

end Brainfuck
