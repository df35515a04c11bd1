import Brainfuck.Device.Buffer
import Brainfuck.Proofs.Execution.Actions
import Brainfuck.Proofs.Execution.Moves
/-!
# A run fails only where a call fails

The tape refuses negative shifts and values that are no byte, but a run
never asks for either: a move goes in the direction of its sign, and an add
by the amount of its sign settles among the bytes (`act_ne_fault`). So
whatever ends a run early is an answer of the device, to the last call that
the run has made.

`Config.Unfailed` is the invariant: the tape has the size it started with
and no call has failed. A move preserves it (`Config.Unfailed.step`), and at
the last move it is known which call has failed, if any
(`Config.Unfailed.step_ended`).
-/

namespace Brainfuck

variable {σ ε : Type} {policies : Policies} {device : Device (StateM σ) ε}

/-- The error that a call was answered with, if it failed. -/
def Call.error? : Call ε → Option ε
  | .read (.ok _) => none
  | .read (.error e) => some e
  | .write _ (.ok _) => none
  | .write _ (.error e) => some e

/-! ## Actions -/

/-- **No action asks the impossible of a tape.** -/
theorem act_ne_fault (a : Action) (machine next : Machine) (f : Tape.Fault) :
    machine.act policies a ≠ .fault f next := by
  intro h
  cases a with
  | move | add =>
    rw [act_of_isSilent rfl] at h
    cases h
  | output | input => cases h

theorem Action.size_tapeAfter (a : Action) (t : Tape) : (a.tapeAfter policies t).size = t.size := by
  cases a with
  | move n => exact t.size_moved policies.tape n
  | add d => exact Tape.size_put _ t
  | output | input => rfl

/-- What an action comes to: it is done after a call that succeeded, if it
makes one, or its call has failed and the tape is as it was. -/
theorem perform_recorded_cases {a : Action} {machine : Machine} {outcome : Outcome ε}
    {x y : List (Call ε) × σ} (h : device.recorded.perform policies a machine x = (outcome, y)) :
    (∃ next calls, outcome = .finished next ∧ next.tape.size = machine.tape.size ∧
      y.1 = calls ++ x.1 ∧ ∀ call ∈ calls, call.error? = none) ∨
    ∃ e next call, outcome = .failed (.device e) next ∧ next.tape = machine.tape ∧
      y.1 = call :: x.1 ∧ call.error? = some e := by
  obtain ⟨calls, s⟩ := x
  cases a with
  | move | add =>
    rw [perform_of_isSilent rfl] at h
    cases h
    exact Or.inl ⟨_, [], rfl, Action.size_tapeAfter _ _, rfl, by simp⟩
  | output =>
    rw [perform_output] at h
    simp only [Device.recorded] at h
    rcases hw : device.write machine.tape.currentChar s with ⟨e | _, t⟩
    · rw [hw] at h
      cases h
      exact Or.inr ⟨e, _, _, rfl, rfl, rfl, rfl⟩
    · rw [hw] at h
      cases h
      exact Or.inl ⟨_, [_], rfl, rfl, rfl, by simp [Call.error?]⟩
  | input =>
    rw [perform_input] at h
    simp only [Device.recorded] at h
    rcases hr : device.read s with ⟨e | c, t⟩
    · rw [hr] at h
      cases h
      exact Or.inr ⟨e, _, _, rfl, rfl, rfl, rfl⟩
    · rw [hr] at h
      cases h
      exact Or.inl ⟨_, [_], rfl, Tape.size_put _ _, rfl, by simp [Call.error?]⟩

/-! ## Runs -/

@[simp] theorem Frame.machine_resume (f : Frame) (loops : List Frame) (machine : Machine) :
    (f.resume loops machine).machine = machine := by
  unfold Frame.resume
  split <;> rfl

/-- The tape has `size` cells, and none of the calls has failed. -/
structure Config.Unfailed (size : Nat) (c : Config) (calls : List (Call ε)) : Prop where
  size_eq : c.machine.tape.size = size
  calls : ∀ call ∈ calls, call.error? = none

/-- How a run ends: without a failed call, or with the failure of the last
call. The tape has `size` cells either way. -/
inductive Outcome.EndsWith (size : Nat) : Outcome ε → List (Call ε) → Prop where
  | finished {machine : Machine} {calls : List (Call ε)} :
      machine.tape.size = size → (∀ call ∈ calls, call.error? = none) →
      EndsWith size (.finished machine) calls
  | failed {e : ε} {machine : Machine} {call : Call ε} {earlier : List (Call ε)} :
      machine.tape.size = size → call.error? = some e →
      (∀ call ∈ earlier, call.error? = none) →
      EndsWith size (.failed (.device e) machine) (call :: earlier)

namespace Config

variable {size : Nat} {c c' : Config} {x y : List (Call ε) × σ}

/-- **A move keeps the size of the tape, and no call of it fails.** -/
theorem Unfailed.step (h : c.Unfailed size x.1)
    (hs : Config.step policies device.recorded c x = (.next c', y)) : c'.Unfailed size y.1 := by
  obtain ⟨hsize, hcalls⟩ := h
  rcases step_cases hs with ⟨f, loops, machine, rfl, rfl, rfl⟩ |
    ⟨body, after, loops, machine, rfl, rfl, rfl⟩ | ⟨a, rest, loops, machine, next, rfl, hp, rfl⟩
  · exact ⟨by rwa [Frame.machine_resume], hcalls⟩
  · exact ⟨by rwa [Frame.machine_resume], hcalls⟩
  · rcases perform_recorded_cases hp with ⟨m, calls, ho, htape, hy, hnew⟩ | ⟨e, m, call, ho, -⟩
    · cases ho
      refine ⟨htape.trans hsize, ?_⟩
      rw [hy]
      intro call hc
      rcases List.mem_append.1 hc with hc | hc
      · exact hnew call hc
      · exact hcalls call hc
    · cases ho

/-- **The last move fails only with its call.** -/
theorem Unfailed.step_ended (h : c.Unfailed size x.1) {outcome : Outcome ε}
    (hs : Config.step policies device.recorded c x = (.ended outcome, y)) :
    outcome.EndsWith size y.1 := by
  obtain ⟨hsize, hcalls⟩ := h
  rcases step_ended_cases hs with ⟨machine, rfl, rfl, rfl⟩ |
    ⟨a, rest, loops, machine, f, next, rfl, hp, rfl⟩
  · exact .finished hsize hcalls
  · rcases perform_recorded_cases hp with ⟨m, calls, ho, -⟩ | ⟨e, m, call, ho, htape, hy, he⟩
    · cases ho
    · cases ho
      rw [hy]
      exact .failed ((congrArg Tape.size htape).trans hsize) he hcalls

/-- However often a run has moved, no call of it has failed. -/
theorem Unfailed.moves {n : Nat} (h : c.Unfailed size x.1)
    (hm : Moves policies device.recorded n c x c' y) : c'.Unfailed size y.1 := by
  induction hm with
  | refl => exact h
  | head hs _ ih => exact ih (h.step hs)

theorem Unfailed.ends (h : c.Unfailed size x.1) {outcome : Outcome ε}
    (he : Ends policies device.recorded c x outcome y) : outcome.EndsWith size y.1 := by
  obtain ⟨n, c', x', hm, hs⟩ := ends_iff.1 he
  exact (h.moves hm).step_ended hs

theorem unfailed_start (p : Program) (machine : Machine) :
    (start p machine).Unfailed machine.tape.size ([] : List (Call ε)) :=
  ⟨rfl, by simp⟩

end Config

/-- **A run fails only where a call of the device fails.** At every point of
the run of any program, on any tape and with either policy, the tape has its
size, the cursor is on it, every cell is a byte, no call has failed so far,
and the tape refuses no action. So where the run ends early, it ends with
the error of the last call that it has made, the only one that failed; and
where it finishes, none has. -/
theorem run_fails_only_by_device (device : Device (StateM σ) ε) (p : Program)
    (machine : Machine) (s : σ) :
    (∀ n c calls t, Moves policies device.recorded n (.start p machine) ([], s) c (calls, t) →
      c.machine.tape.size = machine.tape.size ∧ c.machine.tape.cursor < machine.tape.size ∧
      (∀ v ∈ c.machine.tape.cells, v.toNat ≤ 255) ∧ (∀ call ∈ calls, call.error? = none) ∧
      ∀ a f next, c.machine.act policies a ≠ .fault f next) ∧
    ∀ outcome calls t,
      Ends policies device.recorded (.start p machine) ([], s) outcome (calls, t) →
      outcome.EndsWith machine.tape.size calls := by
  constructor
  · intro n c calls t hm
    obtain ⟨hsize, hcalls⟩ := (Config.unfailed_start p machine).moves hm
    have hcursor : c.machine.tape.cursor < c.machine.tape.size := c.machine.tape.cursor_lt
    exact ⟨hsize, hsize ▸ hcursor, fun v _ => Nat.le_of_lt_succ v.toNat_lt, hcalls,
      fun a f next => act_ne_fault a c.machine next f⟩
  · intro outcome calls t he
    exact (Config.unfailed_start p machine).ends he

/-- Goes beyond the end of the tape, reads, counts below zero, and reads
again. -/
def readBelowZero : Program :=
  .act (.move 100000000000000000000) (.act .input (.act (.add 128) (.act .input .nil)))

/-- On clamped cells `readBelowZero` ends at the end of its input, on the
last cell and with zero in it. -/
theorem run_fails_only_by_device_readBelowZero :
    (∃ c, Moves ⟨.clamp, .clamp⟩ Buffer.device.recorded 3
      (.start readBelowZero ⟨.blank 2 (by decide), 0⟩) ([], ⟨['a'], ""⟩) c
        ([.read (.ok 'a')], ⟨[], ""⟩) ∧
      c.machine.tape.size = 2 ∧ c.machine.tape.cursor < 2) ∧
    Ends ⟨.clamp, .clamp⟩ Buffer.device.recorded
      (.start readBelowZero ⟨.blank 2 (by decide), 0⟩) ([], ⟨['a'], ""⟩)
      (.failed (.device .exhausted) ⟨⟨#[0, 0], 1, by decide⟩, 4⟩)
      ([.read (.error .exhausted), .read (.ok 'a')], ⟨[], ""⟩) ∧
    (Outcome.failed (.device CharFailure.exhausted)
      ⟨⟨#[0, 0], 1, by decide⟩, 4⟩).EndsWith 2 [.read (.error .exhausted), .read (.ok 'a')] := by
  obtain ⟨hmoves, hends⟩ := @run_fails_only_by_device _ _ ⟨.clamp, .clamp⟩ Buffer.device
    readBelowZero ⟨.blank 2 (by decide), 0⟩ ⟨['a'], ""⟩
  obtain ⟨c, hm⟩ := runFor_eq_none_iff.1 (show runFor ⟨.clamp, .clamp⟩ Buffer.device.recorded 3
    (.start readBelowZero ⟨.blank 2 (by decide), 0⟩) ([], ⟨['a'], ""⟩) =
      (none, [.read (.ok 'a')], ⟨[], ""⟩) from rfl)
  have he : Ends ⟨.clamp, .clamp⟩ Buffer.device.recorded
      (.start readBelowZero ⟨.blank 2 (by decide), 0⟩) ([], ⟨['a'], ""⟩)
      (.failed (.device .exhausted) ⟨⟨#[0, 0], 1, by decide⟩, 4⟩)
      ([.read (.error .exhausted), .read (.ok 'a')], ⟨[], ""⟩) := ⟨4, rfl⟩
  obtain ⟨hsize, hcursor, -⟩ := hmoves 3 c _ _ hm
  exact ⟨⟨c, hm, hsize, hcursor⟩, he, hends _ _ _ he⟩

end Brainfuck
