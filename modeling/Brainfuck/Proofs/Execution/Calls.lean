import Brainfuck.Proofs.Execution.Actions
import Brainfuck.Proofs.Execution.Moves
/-!
# The calls of a run only grow

A device that notes its calls never takes a note back: whatever it has
noted before an action, a move or a run is still noted after it, below what
is new (`perform_calls`, `step_calls`, `runFor_calls`). So the calls that a
run has made at some point begin those of every later point
(`runFor_add_calls`).
-/

namespace Brainfuck

variable {σ ε : Type} {policies : Policies} {device : Device (StateM σ) ε}
variable {x y : List (Call ε) × σ}

/-- An action adds the call it makes, if it makes one. -/
theorem perform_calls {a : Action} {machine : Machine} {outcome : Outcome ε}
    (h : device.recorded.perform policies a machine x = (outcome, y)) : x.1 <:+ y.1 := by
  obtain ⟨calls, s⟩ := x
  cases a with
  | move | add =>
    rw [perform_of_isSilent rfl] at h
    cases h
    exact List.suffix_refl _
  | output =>
    rw [perform_output] at h
    have hy : y = (device.recorded.write machine.tape.currentChar (calls, s)).2 :=
      (congrArg Prod.snd h).symm
    rw [hy]
    exact List.suffix_cons _ _
  | input =>
    rw [perform_input] at h
    have hy : y = (device.recorded.read (calls, s)).2 := (congrArg Prod.snd h).symm
    rw [hy]
    exact List.suffix_cons _ _

/-- A move of any kind takes no call back. -/
theorem step_calls {c : Config} {next : Step ε}
    (h : Config.step policies device.recorded c x = (next, y)) : x.1 <:+ y.1 := by
  cases next with
  | next c' =>
    rcases step_cases h with ⟨f, loops, machine, -, -, rfl⟩ |
      ⟨body, after, loops, machine, -, -, rfl⟩ | ⟨a, rest, loops, machine, next, -, hp, -⟩
    · exact List.suffix_refl _
    · exact List.suffix_refl _
    · exact perform_calls hp
  | ended outcome =>
    rcases step_ended_cases h with ⟨machine, -, -, rfl⟩ |
      ⟨a, rest, loops, machine, f, next, -, hp, -⟩
    · exact List.suffix_refl _
    · exact perform_calls hp

/-- **A run takes no call back.** -/
theorem runFor_calls {fuel : Nat} {c : Config} {outcome? : Option (Outcome ε)}
    (h : runFor policies device.recorded fuel c x = (outcome?, y)) : x.1 <:+ y.1 := by
  induction fuel generalizing c x with
  | zero =>
    cases h
    exact List.suffix_refl _
  | succ fuel ih =>
    rcases hs : Config.step policies device.recorded c x with ⟨c' | outcome, x'⟩
    · rw [Nat.add_comm, (Moves.single hs).runFor_add] at h
      exact (step_calls hs).trans (ih h)
    · rw [runFor_of_step_ended hs] at h
      cases h
      exact step_calls hs

/-- The calls of a run that has not ended begin those of every later
point. -/
theorem runFor_add_calls {fuel more : Nat} {c : Config} {outcome? : Option (Outcome ε)}
    {z : List (Call ε) × σ} (h : runFor policies device.recorded fuel c x = (none, y))
    (h' : runFor policies device.recorded (fuel + more) c x = (outcome?, z)) : y.1 <:+ z.1 := by
  obtain ⟨c', hm⟩ := runFor_eq_none_iff.1 h
  rw [hm.runFor_add] at h'
  exact runFor_calls h'

end Brainfuck
