import Brainfuck.Proofs.Fusion.Simulation
import Brainfuck.Proofs.Execution.Calls
import Brainfuck.Device.Buffer
/-!
# Optimized programs do what their programs do

`Refines policies device p q` says that `q` can stand in for `p` on a
machine with the policies: wherever a run of `p` ends, a run of `q` ends
with the same tape and the same failure, and whatever a run of `p` has
done to the device before its end, a run of `q` does as well. A pass
refines the program it is given (`refines_pass`), and so does any number
of passes (`refines_optimize`).

`optimize_preserves_run` reads this for a device that notes its calls, so
that the calls themselves are compared. They are noted latest first, so
that the earlier ones are a suffix.
-/

namespace Brainfuck

variable {σ ε : Type} {policies assumed actual : Policies} {device : Device (StateM σ) ε}

/-! ## Ends that agree -/

/-- The same tape and the same failure, if any. -/
def Outcome.Agrees (o o' : Outcome ε) : Prop :=
  o.failure? = o'.failure? ∧ o.machine.tape = o'.machine.tape

/-- A run ends, up to the number of instructions, with an outcome, and
leaves the device in a state. -/
def EndsAlike (policies : Policies) (device : Device (StateM σ) ε) (c : Config) (s : σ)
    (outcome : Outcome ε) (t : σ) : Prop :=
  ∃ outcome', outcome'.Agrees outcome ∧ Ends policies device c s outcome' t

theorem Outcome.Agrees.symm {o o' : Outcome ε} (h : o.Agrees o') : o'.Agrees o :=
  ⟨h.1.symm, h.2.symm⟩

theorem Outcome.Agrees.trans {o o' o'' : Outcome ε} (h : o.Agrees o') (h' : o'.Agrees o'') :
    o.Agrees o'' :=
  ⟨h.1.trans h'.1, h.2.trans h'.2⟩

theorem Outcome.Within.agrees {o o' : Outcome ε} (h : o.Within o') : o.Agrees o' :=
  ⟨h.1, h.2.1⟩

theorem Outcome.Within.trans {o o' o'' : Outcome ε} (h : o.Within o') (h' : o'.Within o'') :
    o.Within o'' :=
  ⟨h.1.trans h'.1, h.2.1.trans h'.2.1, Nat.le_trans h.2.2 h'.2.2⟩

/-! ## Refinement -/

/-- The second program can stand in for the first. -/
structure Refines (policies : Policies) (device : Device (StateM σ) ε) (p q : Program) : Prop where
  /-- It ends where the first ends, alike and after no more instructions. -/
  ends : ∀ {machine s outcome t}, Ends policies device (.start p machine) s outcome t →
    ∃ outcome', Ends policies device (.start q machine) s outcome' t ∧ outcome'.Within outcome
  /-- It does to the device what the first has done before its end. -/
  unfinished : ∀ {machine s fuel t}, runFor policies device fuel (.start p machine) s = (none, t) →
    ∃ fuel', runFor policies device fuel' (.start q machine) s = (none, t)

theorem Refines.refl (p : Program) : Refines policies device p p where
  ends h := ⟨_, h, rfl, rfl, Nat.le_refl _⟩
  unfinished h := ⟨_, h⟩

theorem Refines.trans {p q r : Program} (h : Refines policies device p q)
    (h' : Refines policies device q r) : Refines policies device p r where
  ends he := by
    obtain ⟨outcome', he', ho⟩ := h.ends he
    obtain ⟨outcome'', he'', ho'⟩ := h'.ends he'
    exact ⟨outcome'', he'', ho'.trans ho⟩
  unfinished hr := by
    obtain ⟨fuel', hr'⟩ := h.unfinished hr
    exact h'.unfinished hr'

/-- **A pass refines the program**, on every machine that has the policies
which the pass assumes, as far as it assumes wrapping. -/
theorem refines_pass (h : assumed.Admits actual) (p : Program) :
    Refines actual device p (p.pass assumed) where
  ends he := (Trails.start p _).ends h he
  unfinished hr := by
    obtain ⟨c, hm⟩ := runFor_eq_none_iff.1 hr
    obtain ⟨k, d, hd, -⟩ := (Trails.start p _).moves h hm
    exact ⟨k, runFor_eq_none_iff.2 ⟨d, hd⟩⟩

/-- **Any number of passes refines the program.** -/
theorem refines_optimize (h : assumed.Admits actual) (budget : Budget) (p : Program) :
    Refines actual device p (p.optimize assumed budget) :=
  Program.optimize_induction (fun q hq => hq.trans (refines_pass h q)) budget (.refl p)

/-! ## Runs and their calls -/

/-- **Optimizing preserves runs.** Where the program ends, the optimized
program ends with the same failure, if any, the same cells and cursor and
the same calls of the device. As long as the program has not ended, its
calls so far are exactly those that the optimized program has made by some
point of its run, and they begin those it has made by any later point. -/
theorem optimize_preserves_run (h : assumed.Admits actual) (budget : Budget) (p : Program)
    (machine : Machine) (s : σ) :
    (∀ outcome t, Ends actual device.recorded (.start p machine) ([], s) outcome t →
      EndsAlike actual device.recorded (.start (p.optimize assumed budget) machine) ([], s)
        outcome t) ∧
    ∀ fuel calls t,
      runFor actual device.recorded fuel (.start p machine) ([], s) = (none, calls, t) →
      ∃ fuel', runFor actual device.recorded fuel' (.start (p.optimize assumed budget) machine)
        ([], s) = (none, calls, t) ∧
        ∀ more outcome? calls' t',
          runFor actual device.recorded (fuel' + more)
            (.start (p.optimize assumed budget) machine) ([], s) = (outcome?, calls', t') →
          calls <:+ calls' := by
  have hr : Refines actual device.recorded p (p.optimize assumed budget) :=
    refines_optimize h budget p
  constructor
  · intro outcome t he
    obtain ⟨outcome', he', ho⟩ := hr.ends he
    exact ⟨outcome', ho.agrees, he'⟩
  · intro fuel calls t hn
    obtain ⟨fuel', hn'⟩ := hr.unfinished hn
    refine ⟨fuel', hn', ?_⟩
    intro more outcome? calls' t' hlater
    exact runFor_add_calls hn' hlater

/-- Goes below zero and up again, counts down beside a loop that a pass
leaves out, and then reads, writes and reads. -/
def readTwice : Program :=
  .act (.add 255) (.act (.add 1)
    (.loop (.act (.add 255) (.loop (.act (.move 1) (.act (.move (-1)) .nil)) .nil))
      (.act .input (.act .output (.act .input .nil)))))

/-- On clamped cells `readTwice` stops at its second read, where the input
is exhausted, and so does what the optimizer makes of it. -/
theorem optimize_preserves_run_readTwice :
    Policies.Admits ⟨.wrap, .clamp⟩ ⟨.wrap, .clamp⟩ ∧
    Ends ⟨.wrap, .clamp⟩ Buffer.device.recorded
      (.start readTwice ⟨.blank 2 (by decide), 0⟩) ([], ⟨['a'], ""⟩)
      (.failed (.device .exhausted) ⟨⟨#[97, 0], 0, by decide⟩, 8⟩)
      ([.read (.error .exhausted), .write 'a' (.ok ()), .read (.ok 'a')], ⟨[], "".push 'a'⟩) ∧
    EndsAlike ⟨.wrap, .clamp⟩ Buffer.device.recorded
      (.start (readTwice.optimize ⟨.wrap, .clamp⟩ .untilStable) ⟨.blank 2 (by decide), 0⟩)
      ([], ⟨['a'], ""⟩)
      (.failed (.device .exhausted) ⟨⟨#[97, 0], 0, by decide⟩, 8⟩)
      ([.read (.error .exhausted), .write 'a' (.ok ()), .read (.ok 'a')], ⟨[], "".push 'a'⟩) ∧
    runFor ⟨.wrap, .clamp⟩ Buffer.device.recorded 7
      (.start readTwice ⟨.blank 2 (by decide), 0⟩) ([], ⟨['a'], ""⟩) =
      (none, [.read (.ok 'a')], ⟨[], ""⟩) ∧
    ∃ fuel', runFor ⟨.wrap, .clamp⟩ Buffer.device.recorded fuel'
      (.start (readTwice.optimize ⟨.wrap, .clamp⟩ .untilStable) ⟨.blank 2 (by decide), 0⟩)
      ([], ⟨['a'], ""⟩) = (none, [.read (.ok 'a')], ⟨[], ""⟩) := by
  have hadmits : Policies.Admits ⟨.wrap, .clamp⟩ ⟨.wrap, .clamp⟩ := by decide
  obtain ⟨hends, hcalls⟩ := @optimize_preserves_run _ _ _ _ Buffer.device hadmits .untilStable
    readTwice ⟨.blank 2 (by decide), 0⟩ ⟨['a'], ""⟩
  obtain ⟨fuel', hn, -⟩ := hcalls 7 [.read (.ok 'a')] ⟨[], ""⟩ rfl
  exact ⟨hadmits, ⟨20, rfl⟩, hends _ _ ⟨20, rfl⟩, rfl, fuel', hn⟩

end Brainfuck
