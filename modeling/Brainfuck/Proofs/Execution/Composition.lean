import Brainfuck.Device.Script
import Brainfuck.Proofs.Execution.Sequence
import Brainfuck.Proofs.Execution.Symmetry
/-!
# Runs in a row

`Comes` and `Diverges` say what a computation with a bound comes to without
one. In these terms a run is what the structure of its program says
(`comes_run`), and so is the execution of its instructions one by one
(`comes_stepThrough`), by the equations of `Brainfuck.Proofs.Execution.Sequence`.

A loop that is entered is its body and then the loop. The loop is counted
before the round on the one side and behind it on the other, so the counts
differ by one during the round, and that does nothing to it
(`exec_tick_iff`). `runs_compose` is all of this together.
-/

namespace Brainfuck

variable {σ ε : Type} {policies : Policies} {device : Device (StateM σ) ε}

/-! ## Computations with a bound -/

/-- A computation with a bound comes to an outcome where the bound is large
enough. -/
def Comes (x : Nat → Machine → StateM σ (Option (Outcome ε))) (machine : Machine) (s : σ)
    (outcome : Outcome ε) (t : σ) : Prop :=
  ∃ fuel, x fuel machine s = (some outcome, t)

/-- No bound is large enough. -/
def Diverges (x : Nat → Machine → StateM σ (Option (Outcome ε))) (machine : Machine) (s : σ) :
    Prop :=
  ∀ fuel, (x fuel machine s).1 = none

theorem diverges_iff {x : Nat → Machine → StateM σ (Option (Outcome ε))} {machine : Machine}
    {s : σ} : Diverges x machine s ↔ ∀ outcome t, ¬ Comes x machine s outcome t := by
  constructor
  · rintro h outcome t ⟨fuel, hx⟩
    have hnone := h fuel
    rw [hx] at hnone
    cases hnone
  · intro h fuel
    cases hx : (x fuel machine s).1 with
    | none => rfl
    | some outcome => exact absurd ⟨fuel, Prod.ext hx rfl⟩ (h outcome (x fuel machine s).2)

/-- A run comes to what the structure of its program says. -/
theorem comes_run (policies : Policies) (device : Device (StateM σ) ε) (p : Program) :
    Comes (run policies device · p) = Exec policies device (.program p) := by
  funext machine s outcome t
  exact propext ⟨Ends.exec, Exec.ends⟩

/-- A run comes to one outcome only. -/
theorem Exec.unique {p : Program} {machine : Machine} {s t t' : σ} {outcome outcome' : Outcome ε}
    (h : Exec policies device (.program p) machine s outcome t)
    (h' : Exec policies device (.program p) machine s outcome' t') : outcome = outcome' ∧ t = t' :=
  h.ends.unique h'.ends

/-- Two things in a row come to nothing exactly if the first does, or
finishes and then the second comes to nothing. -/
theorem exec_then_none_iff {p : Program} {second : Machine → σ → Outcome ε → σ → Prop}
    {machine : Machine} {s : σ} :
    (∀ outcome t, ¬ Then (Exec policies device (.program p)) second machine s outcome t) ↔
      (∀ outcome t, ¬ Exec policies device (.program p) machine s outcome t) ∨
        ∃ next u, Exec policies device (.program p) machine s (.finished next) u ∧
          ∀ outcome t, ¬ second next u outcome t := by
  constructor
  · intro h
    by_cases hp : ∃ outcome u, Exec policies device (.program p) machine s outcome u
    · obtain ⟨next | ⟨f, next⟩, u, hp⟩ := hp
      · exact Or.inr ⟨next, u, hp, fun outcome t hq => h outcome t (Or.inl ⟨next, u, hp, hq⟩)⟩
      · exact absurd (Or.inr ⟨f, next, rfl, hp⟩) (h (.failed f next) u)
    · exact Or.inl fun outcome u ho => hp ⟨outcome, u, ho⟩
  · rintro (h | ⟨next, u, hp, hq⟩) outcome t (⟨next', u', hp', hq'⟩ | ⟨f, next', rfl, hp'⟩)
    · exact h _ _ hp'
    · exact h _ _ hp'
    · obtain ⟨ho, rfl⟩ := hp.unique hp'
      cases ho
      exact hq outcome t hq'
    · cases (hp.unique hp').1

/-! ## Instruction by instruction -/

theorem execute_mono {fuel more : Nat} (hle : fuel ≤ more) {i : Instruction} {machine : Machine}
    {s t : σ} {outcome : Outcome ε}
    (h : execute policies device fuel i machine s = (some outcome, t)) :
    execute policies device more i machine s = (some outcome, t) := by
  cases i with
  | act a => exact h
  | loop b => exact runFor_mono hle h

/-- Executing an instruction is running it alone. -/
theorem comes_execute (policies : Policies) (device : Device (StateM σ) ε) (i : Instruction) :
    Comes (execute policies device · i) = Exec policies device (.program (.cons i .nil)) := by
  cases i with
  | loop b => exact comes_run policies device (.loop b .nil)
  | act a =>
    rw [Program.cons, exec_act, then_exec_nil]
    funext machine s outcome t
    refine propext ⟨?_, fun h => ⟨0, congrArg (Prod.map some id) h⟩⟩
    rintro ⟨fuel, h⟩
    obtain ⟨ho, ht⟩ := Prod.mk.inj h
    exact Prod.ext (Option.some.inj ho) ht

/-- Executes instructions one after the other up to the first failure. -/
def stepThrough (policies : Policies) (device : Device (StateM σ) ε) (fuel : Nat)
    (l : List Instruction) (machine : Machine) : StateM σ (Option (Outcome ε)) :=
  Prod.snd <$> executeEach policies device fuel l machine

/-- An instruction that is done is followed by the others. -/
theorem stepThrough_cons {fuel : Nat} {i : Instruction} {machine next : Machine} {s u : σ}
    (h : execute policies device fuel i machine s = (some (.finished next), u))
    (l : List Instruction) :
    stepThrough policies device fuel (i :: l) machine s =
      stepThrough policies device fuel l next u := by
  simp only [stepThrough, executeEach, Functor.map, StateT.map, bind, StateT.bind, h]
  rfl

/-- An instruction that fails is the last. -/
theorem stepThrough_cons_failed {fuel : Nat} {i : Instruction} {machine next : Machine} {s u : σ}
    {f : Failure ε} (h : execute policies device fuel i machine s = (some (.failed f next), u))
    (l : List Instruction) :
    stepThrough policies device fuel (i :: l) machine s = (some (.failed f next), u) := by
  simp only [stepThrough, executeEach, Functor.map, StateT.map, bind, StateT.bind, h]
  rfl

theorem stepThrough_cons_none {fuel : Nat} {i : Instruction} {machine : Machine} {s u : σ}
    (h : execute policies device fuel i machine s = (none, u)) (l : List Instruction) :
    stepThrough policies device fuel (i :: l) machine s = (none, u) := by
  simp only [stepThrough, executeEach, Functor.map, StateT.map, bind, StateT.bind, h]
  rfl

theorem stepThrough_mono {fuel more : Nat} (hle : fuel ≤ more) {l : List Instruction}
    {machine : Machine} {s t : σ} {outcome : Outcome ε}
    (h : stepThrough policies device fuel l machine s = (some outcome, t)) :
    stepThrough policies device more l machine s = (some outcome, t) := by
  induction l generalizing machine s with
  | nil => exact h
  | cons i l ih =>
    rcases he : execute policies device fuel i machine s with ⟨_ | next | ⟨f, next⟩, u⟩
    · rw [stepThrough_cons_none he] at h
      cases h
    · rw [stepThrough_cons he] at h
      rw [stepThrough_cons (execute_mono hle he)]
      exact ih h
    · rw [stepThrough_cons_failed he] at h
      rw [stepThrough_cons_failed (execute_mono hle he)]
      exact h

/-- The instructions one by one are the first and then the others. -/
theorem comes_stepThrough_cons (i : Instruction) (l : List Instruction) :
    Comes (stepThrough policies device · (i :: l)) =
      Then (Comes (execute policies device · i)) (Comes (stepThrough policies device · l)) := by
  funext machine s outcome t
  refine propext ⟨?_, ?_⟩
  · rintro ⟨fuel, h : stepThrough policies device fuel (i :: l) machine s = _⟩
    rcases he : execute policies device fuel i machine s with ⟨_ | next | ⟨f, next⟩, u⟩
    · rw [stepThrough_cons_none he] at h
      cases h
    · rw [stepThrough_cons he] at h
      exact Or.inl ⟨next, u, ⟨fuel, he⟩, fuel, h⟩
    · rw [stepThrough_cons_failed he] at h
      cases h
      exact Or.inr ⟨f, next, rfl, fuel, he⟩
  · rintro (⟨next, u, ⟨fuel, he⟩, fuel', h⟩ | ⟨f, next, rfl, fuel, he⟩)
    · -- one bound that does for both
      refine ⟨max fuel fuel', (stepThrough_cons (execute_mono ?_ he) l).trans ?_⟩
      · exact Nat.le_max_left ..
      · exact stepThrough_mono (Nat.le_max_right ..) h
    · exact ⟨fuel, stepThrough_cons_failed he l⟩

/-- **Executing the instructions one by one is running the program.** -/
theorem comes_stepThrough (policies : Policies) (device : Device (StateM σ) ε)
    (l : List Instruction) :
    Comes (stepThrough policies device · l) = Exec policies device (.program (.ofList l)) := by
  induction l with
  | nil =>
    funext machine s outcome t
    refine propext ⟨?_, fun h => ?_⟩
    · rintro ⟨fuel, h⟩
      cases h
      exact .done
    · cases h
      exact ⟨0, rfl⟩
  | cons i l ih => rw [comes_stepThrough_cons, comes_execute, ih, Program.ofList_cons, ← exec_cons]

/-! ## A round of a loop -/

/-- A run that starts one instruction later in the count comes to the same,
one instruction later in the count. -/
theorem exec_tick_iff {p : Program} {machine : Machine} {s t : σ} {outcome : Outcome ε} :
    Exec policies device (.program p) machine.tick s outcome t ↔
      ∃ outcome', outcome = outcome'.map Machine.tick ∧
        Exec policies device (.program p) machine s outcome' t := by
  constructor
  · intro h
    obtain ⟨outcome', ho, he⟩ :=
      (Machine.isSymmetry_tick policies).ends_iff (c := .start p machine).1 h.ends
    exact ⟨outcome', ho, he.exec⟩
  · rintro ⟨outcome', ho, h⟩
    exact ((Machine.isSymmetry_tick policies).ends_iff (c := .start p machine).2
      ⟨outcome', ho, h.ends⟩).exec

/-- **A loop that is entered is its body and then the loop**; only that a
body that fails has been counted with the loop around it. -/
theorem exec_loop_of_isNonzero {machine : Machine} (h : machine.tape.isNonzero = true)
    (b : Program) {s t : σ} {outcome : Outcome ε} :
    Exec policies device (.program (.loop b .nil)) machine s outcome t ↔
      (∃ next u, Exec policies device (.program b) machine s (.finished next) u ∧
        Exec policies device (.program (.loop b .nil)) next u outcome t) ∨
      ∃ f next, outcome = .failed f next.tick ∧
        Exec policies device (.program b) machine s (.failed f next) t := by
  have htick : machine.tick.tape.isNonzero = true := h
  have htest : Exec policies device (.test b .nil) machine.tick =
      Then (Exec policies device (.program b)) (Exec policies device (.test b .nil))
        machine.tick := exec_test_of_isNonzero htick b .nil
  simp only [exec_loop, htest]
  constructor
  · rintro (⟨next, u, hb, hagain⟩ | ⟨f, next, rfl, hb⟩)
    · obtain ⟨next' | _, ho, hb'⟩ := exec_tick_iff.1 hb
      · cases ho
        exact Or.inl ⟨next', u, hb', hagain⟩
      · cases ho
    · obtain ⟨_ | ⟨f', next'⟩, ho, hb'⟩ := exec_tick_iff.1 hb
      · cases ho
      · cases ho
        exact Or.inr ⟨f, next', rfl, hb'⟩
  · rintro (⟨next, u, hb, hagain⟩ | ⟨f, next, rfl, hb⟩)
    · exact Or.inl ⟨next.tick, u, exec_tick_iff.2 ⟨_, rfl, hb⟩, hagain⟩
    · exact Or.inr ⟨f, next.tick, rfl, exec_tick_iff.2 ⟨_, rfl, hb⟩⟩

/-- A loop that is entered comes to nothing exactly if its body does, or
finishes and then the loop comes to nothing. -/
theorem exec_loop_none_iff {machine : Machine} (h : machine.tape.isNonzero = true) (b : Program)
    {s : σ} :
    (∀ outcome t, ¬ Exec policies device (.program (.loop b .nil)) machine s outcome t) ↔
      (∀ outcome t, ¬ Exec policies device (.program b) machine s outcome t) ∨
        ∃ next u, Exec policies device (.program b) machine s (.finished next) u ∧
          ∀ outcome t, ¬ Exec policies device (.program (.loop b .nil)) next u outcome t := by
  rw [← exec_then_none_iff]
  constructor
  · rintro hnone outcome t (⟨next, u, hb, hagain⟩ | ⟨f, next, rfl, hb⟩)
    · exact hnone _ _ ((exec_loop_of_isNonzero h b).2 (Or.inl ⟨next, u, hb, hagain⟩))
    · exact hnone _ _ ((exec_loop_of_isNonzero h b).2 (Or.inr ⟨f, next, rfl, hb⟩))
  · intro hnone outcome t hloop
    rcases (exec_loop_of_isNonzero h b).1 hloop with ⟨next, u, hb, hagain⟩ | ⟨f, next, -, hb⟩
    · exact hnone _ _ (Or.inl ⟨next, u, hb, hagain⟩)
    · exact hnone _ _ (Or.inr ⟨f, next, rfl, hb⟩)

/-! ## Runs put together -/

/-- **Runs compose.** A run of two programs in a row is the run of the first
and, if it has finished, the run of the second. Executing the instructions of
a program one by one up to the first failure is its run. Executing a loop at
a cell that is not zero is the run of its body and, if that has finished, the
execution of the loop again; if the body fails, an instruction more has been
counted, the loop. Each side comes to nothing exactly if the other does. The
device is any, so it may be one that records its calls. -/
theorem runs_compose (policies : Policies) (device : Device (StateM σ) ε) (p q b : Program)
    (machine : Machine) (s : σ) :
    ((∀ outcome t, Comes (run policies device · (p ++ q)) machine s outcome t ↔
        Then (Comes (run policies device · p)) (Comes (run policies device · q)) machine s
          outcome t) ∧
      (Diverges (run policies device · (p ++ q)) machine s ↔
        Diverges (run policies device · p) machine s ∨
          ∃ next u, Comes (run policies device · p) machine s (.finished next) u ∧
            Diverges (run policies device · q) next u)) ∧
    ((∀ outcome t, Comes (stepThrough policies device · p.toList) machine s outcome t ↔
        Comes (run policies device · p) machine s outcome t) ∧
      (Diverges (stepThrough policies device · p.toList) machine s ↔
        Diverges (run policies device · p) machine s)) ∧
    (machine.tape.isNonzero = true →
      (∀ outcome t, Comes (execute policies device · (.loop b)) machine s outcome t ↔
        (∃ next u, Comes (run policies device · b) machine s (.finished next) u ∧
          Comes (execute policies device · (.loop b)) next u outcome t) ∨
        ∃ f next, outcome = .failed f next.tick ∧
          Comes (run policies device · b) machine s (.failed f next) t) ∧
      (Diverges (execute policies device · (.loop b)) machine s ↔
        Diverges (run policies device · b) machine s ∨
          ∃ next u, Comes (run policies device · b) machine s (.finished next) u ∧
            Diverges (execute policies device · (.loop b)) next u)) := by
  simp only [diverges_iff, comes_run, comes_stepThrough, comes_execute, Program.ofList_toList,
    exec_append, implies_true, true_and]
  exact ⟨exec_then_none_iff, fun h =>
    ⟨fun _ _ => exec_loop_of_isNonzero h b, exec_loop_none_iff h b⟩⟩

/-- Writes the current cell and lowers it. -/
def writeDown : Program := .act .output (.act (.add 255) .nil)

/-- Streams over which the first character is written and the second is not,
after so many characters. -/
def oneWritten (writes : Nat) (written : String) : Script :=
  { input := .text [], plan := { writes := [1] }, writes := writes,
    flushes := min writes 1, written := written }

/-- At a cell of two `writeDown` finishes, and at the one that it leaves it
fails at its first instruction, the third in all. So the loop around it fails
at the fourth. -/
theorem runs_compose_writeDown :
    (⟨#[2], 0, by decide⟩ : Tape).isNonzero = true ∧
    Comes (run ⟨.wrap, .wrap⟩ Script.streams.device · writeDown) ⟨⟨#[2], 0, by decide⟩, 0⟩
      (oneWritten 0 "") (.finished ⟨⟨#[1], 0, by decide⟩, 2⟩) (oneWritten 1 "\x02") ∧
    Comes (run ⟨.wrap, .wrap⟩ Script.streams.device · writeDown) ⟨⟨#[1], 0, by decide⟩, 2⟩
      (oneWritten 1 "\x02")
      (.failed (.device (.output "write 1 failed")) ⟨⟨#[1], 0, by decide⟩, 3⟩)
      (oneWritten 2 "\x02") ∧
    Comes (execute ⟨.wrap, .wrap⟩ Script.streams.device · (.loop writeDown))
      ⟨⟨#[2], 0, by decide⟩, 0⟩ (oneWritten 0 "")
      (.failed (.device (.output "write 1 failed")) ⟨⟨#[1], 0, by decide⟩, 4⟩)
      (oneWritten 2 "\x02") := by
  have hround : Comes (run ⟨.wrap, .wrap⟩ Script.streams.device · writeDown)
      ⟨⟨#[2], 0, by decide⟩, 0⟩ (oneWritten 0 "") (.finished ⟨⟨#[1], 0, by decide⟩, 2⟩)
      (oneWritten 1 "\x02") := ⟨3, rfl⟩
  have hfails : Comes (run ⟨.wrap, .wrap⟩ Script.streams.device · writeDown)
      ⟨⟨#[1], 0, by decide⟩, 2⟩ (oneWritten 1 "\x02")
      (.failed (.device (.output "write 1 failed")) ⟨⟨#[1], 0, by decide⟩, 3⟩)
      (oneWritten 2 "\x02") := ⟨3, rfl⟩
  obtain ⟨-, -, hsecond⟩ := runs_compose ⟨.wrap, .wrap⟩ Script.streams.device .nil .nil writeDown
    ⟨⟨#[1], 0, by decide⟩, 2⟩ (oneWritten 1 "\x02")
  obtain ⟨-, -, hfirst⟩ := runs_compose ⟨.wrap, .wrap⟩ Script.streams.device .nil .nil writeDown
    ⟨⟨#[2], 0, by decide⟩, 0⟩ (oneWritten 0 "")
  have hagain := ((hsecond rfl).1 _ _).2 (Or.inr ⟨_, _, rfl, hfails⟩)
  exact ⟨rfl, hround, hfails, ((hfirst rfl).1 _ _).2 (Or.inl ⟨_, _, hround, hagain⟩)⟩

end Brainfuck
