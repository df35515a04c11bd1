import Brainfuck.Proofs.Execution.Structure
import Brainfuck.Proofs.Fusion.Soundness
import Brainfuck.Program.Grammar
/-!
# Programs that end alike

`Follows policies device p q` says that wherever `p` ends, `q` ends with the
same tape and the same failure, and leaves the device in the same state, from
every machine with the same tape; how many instructions either of them
counts does not matter. A program can be followed part by part: this is
preserved by an action in front (`Follows.act`) and by loops
(`Follows.loop`), and a loop whose body is followed by nothing is followed by
what comes after it (`Follows.leaveOut`), since a loop that ends has left its
body as often as it has entered it.

The proofs are inductions over `Exec`; `Follows.endsAlike` reads the result
for runs.
-/

namespace Brainfuck

variable {σ ε : Type} {policies : Policies} {device : Device (StateM σ) ε}

/-! ## Machines with the same tape -/

theorem Outcome.Agrees.eq_finished {o : Outcome ε} {machine : Machine}
    (h : o.Agrees (.finished machine)) :
    ∃ machine', o = .finished machine' ∧ machine'.tape = machine.tape := by
  cases o with
  | finished machine' => exact ⟨machine', rfl, h.2⟩
  | failed f machine' => cases h.1

theorem Outcome.Agrees.eq_failed {o : Outcome ε} {machine : Machine} {f : Failure ε}
    (h : o.Agrees (.failed f machine)) :
    ∃ machine', o = .failed f machine' ∧ machine'.tape = machine.tape := by
  cases o with
  | finished machine' => cases h.1
  | failed f' machine' =>
    obtain rfl := Option.some.inj h.1
    exact ⟨machine', rfl, h.2⟩

/-- An action fares alike on every machine with the same tape. -/
theorem perform_agrees {a : Action} {machine machine' : Machine} {s t : σ} {outcome : Outcome ε}
    (ht : machine'.tape = machine.tape)
    (h : device.perform policies a machine s = (outcome, t)) :
    ∃ outcome', device.perform policies a machine' s = (outcome', t) ∧
      outcome'.Agrees outcome := by
  rcases Nat.le_total machine'.steps machine.steps with hle | hle
  · obtain ⟨outcome', hp, hw⟩ := perform_within ⟨ht, hle⟩ h
    exact ⟨outcome', hp, hw.agrees⟩
  · rcases hp : device.perform policies a machine' s with ⟨outcome', t'⟩
    obtain ⟨o, ho, hw⟩ := perform_within ⟨ht.symm, hle⟩ hp
    rw [h] at ho
    cases ho
    exact ⟨outcome', rfl, hw.agrees.symm⟩

/-! ## Following -/

/-- Where the first program ends the second ends alike, from every machine
with the same tape. -/
def Follows (policies : Policies) (device : Device (StateM σ) ε) (p q : Program) : Prop :=
  ∀ machine machine' s outcome t, machine'.tape = machine.tape →
    Exec policies device (.program p) machine s outcome t →
    ∃ outcome', Exec policies device (.program q) machine' s outcome' t ∧
      outcome'.Agrees outcome

namespace Follows

variable {p q r b b' r' : Program}

theorem trans (h : Follows policies device p q) (h' : Follows policies device q r) :
    Follows policies device p r := by
  intro machine machine' s outcome t ht he
  obtain ⟨o, ho, ha⟩ := h machine machine' s outcome t ht he
  obtain ⟨o', ho', ha'⟩ := h' machine' machine' s o t rfl ho
  exact ⟨o', ho', ha'.trans ha⟩

theorem nil : Follows policies device .nil .nil := by
  intro machine machine' s outcome t ht he
  cases he
  exact ⟨.finished machine', .done, rfl, ht⟩

/-- An action in front. -/
theorem act (h : Follows policies device r r') (a : Action) :
    Follows policies device (.act a r) (.act a r') := by
  intro machine machine' s outcome t ht he
  cases he with
  | act hp hr =>
    obtain ⟨o, hp', ha⟩ := perform_agrees ht hp
    obtain ⟨next', rfl, ht'⟩ := ha.eq_finished
    obtain ⟨o', ho', ha'⟩ := h _ next' _ _ _ ht' hr
    exact ⟨o', .act hp' ho', ha'⟩
  | actFailed hp =>
    obtain ⟨o, hp', ha⟩ := perform_agrees ht hp
    obtain ⟨next', rfl, -⟩ := ha.eq_failed
    exact ⟨_, .actFailed hp', ha⟩

/-- The test of a loop: the induction is over the rounds. -/
theorem test (hb : Follows policies device b b') (hr : Follows policies device r r')
    {machine : Machine} {s t : σ} {outcome : Outcome ε}
    (he : Exec policies device (.test b r) machine s outcome t) :
    ∀ machine' : Machine, machine'.tape = machine.tape →
      ∃ outcome', Exec policies device (.test b' r') machine' s outcome' t ∧
        outcome'.Agrees outcome := by
  generalize htask : Task.test b r = task at he
  induction he with
  | done | act | actFailed | loop => cases htask
  | leave hz hafter =>
    cases htask
    intro machine' ht
    obtain ⟨o, ho, ha⟩ := hr _ machine' _ _ _ ht hafter
    exact ⟨o, .leave (by rw [ht]; exact hz) ho, ha⟩
  | round hn hbody _ _ ihAgain =>
    cases htask
    intro machine' ht
    obtain ⟨o, ho, ha⟩ := hb _ machine' _ _ _ ht hbody
    obtain ⟨next', rfl, ht'⟩ := ha.eq_finished
    obtain ⟨o', ho', ha'⟩ := ihAgain rfl next' ht'
    exact ⟨o', .round (by rw [ht]; exact hn) ho ho', ha'⟩
  | roundFailed hn hbody =>
    cases htask
    intro machine' ht
    obtain ⟨o, ho, ha⟩ := hb _ machine' _ _ _ ht hbody
    obtain ⟨next', rfl, -⟩ := ha.eq_failed
    exact ⟨_, .roundFailed (by rw [ht]; exact hn) ho, ha⟩

/-- **A loop is followed by its parts.** -/
theorem loop (hb : Follows policies device b b') (hr : Follows policies device r r') :
    Follows policies device (.loop b r) (.loop b' r') := by
  intro machine machine' s outcome t ht he
  cases he with
  | loop htest =>
    obtain ⟨o, ho, ha⟩ := hb.test hr htest machine'.tick ht
    exact ⟨o, .loop ho, ha⟩

/-- A body that is followed by nothing has changed nothing where it ends. -/
theorem tape_eq_of_nil (hb : Follows policies device b .nil) {machine : Machine} {s t : σ}
    {outcome : Outcome ε} (he : Exec policies device (.program b) machine s outcome t) :
    outcome.failure? = none ∧ outcome.machine.tape = machine.tape ∧ t = s := by
  obtain ⟨o, ho, hf, ht⟩ := hb machine machine s outcome t rfl he
  cases ho
  exact ⟨hf.symm, ht.symm, rfl⟩

/-- At the test of a loop whose body is followed by nothing, what comes after
it may begin: the rounds change nothing. -/
theorem test_leaveOut (hb : Follows policies device b .nil) (hr : Follows policies device r r')
    {machine : Machine} {s t : σ} {outcome : Outcome ε}
    (he : Exec policies device (.test b r) machine s outcome t) :
    ∀ machine' : Machine, machine'.tape = machine.tape →
      ∃ outcome', Exec policies device (.program r') machine' s outcome' t ∧
        outcome'.Agrees outcome := by
  generalize htask : Task.test b r = task at he
  induction he with
  | done | act | actFailed | loop => cases htask
  | leave hz hafter =>
    cases htask
    intro machine' ht
    exact hr _ machine' _ _ _ ht hafter
  | round hn hbody _ _ ihAgain =>
    cases htask
    intro machine' ht
    obtain ⟨-, hsame, rfl⟩ := hb.tape_eq_of_nil hbody
    exact ihAgain rfl machine' (ht.trans hsame.symm)
  | roundFailed hn hbody =>
    cases htask
    obtain ⟨hf, -, -⟩ := hb.tape_eq_of_nil hbody
    cases hf

/-- **A loop whose body is followed by nothing may be left out.** -/
theorem leaveOut (hb : Follows policies device b .nil) (hr : Follows policies device r r') :
    Follows policies device (.loop b r) r' := by
  intro machine machine' s outcome t ht he
  cases he with
  | loop htest => exact hb.test_leaveOut hr htest machine' ht

/-- A loop is followed by its parts also where they are only kept if there is
a body. -/
theorem keepLoop (hb : Follows policies device b b') (hr : Follows policies device r r') :
    Follows policies device (.loop b r) (.keepLoop b' r') := by
  by_cases hn : b' = .nil
  · subst hn
    exact hb.leaveOut hr
  · rw [Program.keepLoop_of_ne_nil hn]
    exact hb.loop hr

/-- **Empty loops may be left out.** -/
theorem withoutEmptyLoops (p : Program) :
    Follows policies device p p.withoutEmptyLoops := by
  induction p with
  | nil => exact nil
  | act a r ih => exact ih.act a
  | loop b r ihb ih => exact ihb.keepLoop ih

/-- What a program ends with, it is followed in. -/
theorem endsAlike (h : Follows policies device p q) {machine : Machine} {s t : σ}
    {outcome : Outcome ε} (he : EndsAlike policies device (.start p machine) s outcome t) :
    EndsAlike policies device (.start q machine) s outcome t := by
  obtain ⟨o, ha, ho⟩ := he
  obtain ⟨o', ho', ha'⟩ := h machine machine s o t rfl ho.exec
  exact ⟨o', ha'.trans ha, ho'.ends⟩

end Follows

end Brainfuck
