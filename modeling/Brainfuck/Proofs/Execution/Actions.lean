import Brainfuck.Execution
import Brainfuck.Proofs.Tape.Operations
/-!
# What an action does

A move or an add is silent: it asks nothing of the device, it cannot fail,
and the tape it leaves is a function of the tape it finds
(`perform_of_isSilent`). Output and input make one call each, and what
they do depends on the tape alone (`perform_output`, `perform_input`), so
machines with the same tape fare alike: `perform_within`.
-/

namespace Brainfuck

variable {σ ε : Type} {policies : Policies} {device : Device (StateM σ) ε}

namespace Action

/-- Whether an action asks nothing of the device. -/
def isSilent : Action → Bool
  | move _ => true
  | add _ => true
  | output => false
  | input => false

/-- The tape after a silent action. -/
def tapeAfter (policies : Policies) : Action → Tape → Tape
  | move n, t => t.moved policies.tape n
  | add d, t => t.changed policies.cell d
  | output, t => t
  | input, t => t

/-- An action that changes nothing changes nothing. -/
theorem tapeAfter_of_isIdle {a : Action} (h : a.isIdle = true) (t : Tape) :
    a.tapeAfter policies t = t := by
  cases a with
  | move n =>
    obtain rfl : n = 0 := by simpa [isIdle] using h
    exact t.moved_zero policies.tape
  | add d =>
    obtain rfl : d = 0 := by simpa [isIdle] using h
    exact t.changed_zero policies.cell
  | output => rfl
  | input => rfl

end Action

/-! ## Silent actions -/

theorem moveBy_eq (policy : Overflow) (shift : Int) (t : Tape) :
    Machine.moveBy policy shift t = .ok () (t.moved policy shift) := by
  by_cases hs : 0 ≤ shift
  · rw [Machine.moveBy, if_pos hs, Tape.moveRight_eq hs]
  · rw [Machine.moveBy, if_neg hs, Tape.moveLeft_eq (by omega), Int.neg_neg]

theorem changeBy_eq (policy : Overflow) (delta : UInt8) (t : Tape) :
    Machine.changeBy policy delta t = .ok () (t.changed policy delta) := by
  have hv := t.current.toNat_lt
  by_cases hs : 0 ≤ signed delta
  · rw [Machine.changeBy, if_pos hs, Tape.add_eq t (by omega), Tape.changed_eq_settled]
  · rw [Machine.changeBy, if_neg hs, Tape.subtract_eq t (by omega), Int.sub_neg,
      Tape.changed_eq_settled]

/-- **A silent action is done**: it is counted, and the tape changes. -/
theorem act_of_isSilent {a : Action} (h : a.isSilent = true) (machine : Machine) :
    machine.act policies a = .done ⟨a.tapeAfter policies machine.tape, machine.steps + 1⟩ := by
  obtain ⟨tape, steps⟩ := machine
  cases a with
  | move n => simp only [Machine.act, Machine.tick, Machine.onTape, moveBy_eq, Action.tapeAfter]
  | add d => simp only [Machine.act, Machine.tick, Machine.onTape, changeBy_eq, Action.tapeAfter]
  | output => cases h
  | input => cases h

theorem perform_of_isSilent {a : Action} (h : a.isSilent = true) (machine : Machine) (s : σ) :
    device.perform policies a machine s =
      (.finished ⟨a.tapeAfter policies machine.tape, machine.steps + 1⟩, s) := by
  rw [Device.perform, act_of_isSilent h]
  rfl

/-! ## Output and input -/

theorem perform_output (machine : Machine) (s : σ) :
    device.perform policies .output machine s =
      (match (device.write machine.tape.currentChar s).1 with
        | .ok () => .finished machine.tick
        | .error e => .failed (.device e) machine.tick,
      (device.write machine.tape.currentChar s).2) := by
  obtain ⟨tape, steps⟩ := machine
  simp only [Device.perform, Machine.act, Machine.tick, Device.carryOut, bind, StateT.bind]
  rcases device.write tape.currentChar s with ⟨_ | _, t⟩ <;> rfl

theorem perform_input (machine : Machine) (s : σ) :
    device.perform policies .input machine s =
      (match (device.read s).1 with
        | .ok c => .finished (machine.tick.receive c)
        | .error e => .failed (.device e) machine.tick,
      (device.read s).2) := by
  simp only [Device.perform, Machine.act, Device.carryOut, bind, StateT.bind]
  rcases device.read s with ⟨_ | _, t⟩ <;> rfl

/-! ## Machines that differ in their count -/

/-- The same tape, after no more instructions. -/
def Machine.Within (fast slow : Machine) : Prop :=
  fast.tape = slow.tape ∧ fast.steps ≤ slow.steps

/-- The same end, after no more instructions. -/
def Outcome.Within (fast slow : Outcome ε) : Prop :=
  fast.failure? = slow.failure? ∧ fast.machine.Within slow.machine

/-- **An action depends on the tape alone.** From machines with the same
tape it comes to the same end. -/
theorem perform_within {a : Action} {fast slow : Machine} {s t : σ} {outcome : Outcome ε}
    (hw : fast.Within slow) (h : device.perform policies a slow s = (outcome, t)) :
    ∃ outcome', device.perform policies a fast s = (outcome', t) ∧ outcome'.Within outcome := by
  obtain ⟨tape, n⟩ := fast
  obtain ⟨tape', m⟩ := slow
  obtain ⟨rfl, hn⟩ : tape = tape' ∧ n ≤ m := hw
  cases a with
  | move | add =>
    rw [perform_of_isSilent rfl] at h
    cases h
    exact ⟨_, perform_of_isSilent rfl _ _, rfl, rfl, Nat.succ_le_succ hn⟩
  | output =>
    rw [perform_output] at h
    cases h
    refine ⟨_, perform_output _ _, ?_⟩
    rcases device.write tape.currentChar s with ⟨_ | _, t⟩ <;>
      exact ⟨rfl, rfl, Nat.succ_le_succ hn⟩
  | input =>
    rw [perform_input] at h
    cases h
    refine ⟨_, perform_input _ _, ?_⟩
    rcases device.read s with ⟨_ | _, t⟩ <;> exact ⟨rfl, rfl, Nat.succ_le_succ hn⟩

end Brainfuck
