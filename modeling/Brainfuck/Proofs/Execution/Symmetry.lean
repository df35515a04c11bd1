import Brainfuck.Proofs.Execution.Actions
import Brainfuck.Proofs.Execution.Moves
/-!
# Maps of machines that a run respects

A run looks at a machine in three places only: the current cell decides a
loop and is what output writes, an action makes another machine of it, and
instructions are counted. A map of machines keeps the view of a run if it
keeps the current cell and goes along with counting and reading
(`Machine.KeepsView`). What is left are the moves and adds, and about them a
run needs to know only those that it comes to, and there it may even follow
other policies on the image (`Config.GoesAlong`). A run from the image of a
machine is then the image of the run from the machine, move by move:
`KeepsView.step` is the step lemma, `KeepsView.runFor` carries it to any bound
and `ends_map_iff` to the end.

A map that goes along with every move and add is a symmetry
(`Machine.IsSymmetry`). Counting an instruction more is one
(`isSymmetry_tick`): what has been counted before a run does nothing to it.
-/

namespace Brainfuck

variable {σ ε : Type} {policies policies' : Policies} {device : Device (StateM σ) ε}
variable {f : Machine → Machine}

/-! ## Images -/

/-- The same end, on the image of the machine. -/
def Outcome.map (f : Machine → Machine) : Outcome ε → Outcome ε
  | .finished machine => .finished (f machine)
  | .failed failure machine => .failed failure (f machine)

/-- The same instructions and loops, on the image of the machine. -/
def Config.map (f : Machine → Machine) (c : Config) : Config := ⟨c.pending, c.loops, f c.machine⟩

/-- The same move, on the image of the machine. -/
def Step.map (f : Machine → Machine) : Step ε → Step ε
  | .next c => .next (c.map f)
  | .ended outcome => .ended (outcome.map f)

/-- A map of machines that keeps what a run looks at. -/
structure Machine.KeepsView (f : Machine → Machine) : Prop where
  current : ∀ machine, (f machine).tape.current = machine.tape.current
  tick : ∀ machine, (f machine).tick = f machine.tick
  receive : ∀ c machine, (f machine).receive c = f (machine.receive c)

/-- A move or an add makes of the image, under the second policies, the image
of what it makes of the machine. -/
def Action.GoesAlong (policies policies' : Policies) (f : Machine → Machine) (a : Action)
    (machine : Machine) : Prop :=
  a.isSilent = true →
    ⟨a.tapeAfter policies' (f machine).tape, (f machine).steps + 1⟩ =
      f ⟨a.tapeAfter policies machine.tape, machine.steps + 1⟩

/-- If an action comes next, it makes of the image the image of what it makes
of the machine. -/
def Config.GoesAlong (policies policies' : Policies) (f : Machine → Machine) (c : Config) : Prop :=
  ∀ a r, c.pending = .act a r → a.GoesAlong policies policies' f c.machine

/-! ## Moves of the image -/

namespace Machine.KeepsView

theorem isNonzero (hf : KeepsView f) (machine : Machine) :
    (f machine).tape.isNonzero = machine.tape.isNonzero := by
  rw [Tape.isNonzero, Tape.isNonzero, hf.current]

/-- **An action makes of the image the image of what it makes**, with the
same calls of the device. -/
theorem perform (hf : KeepsView f) {a : Action} {machine : Machine}
    (ha : a.GoesAlong policies policies' f machine) (s : σ) :
    device.perform policies' a (f machine) s =
      ((device.perform policies a machine s).1.map f, (device.perform policies a machine s).2) := by
  cases a with
  | move | add =>
    rw [perform_of_isSilent rfl, perform_of_isSilent rfl, ha rfl]
    rfl
  | output =>
    have hc : (f machine).tape.currentChar = machine.tape.currentChar := by
      rw [Tape.currentChar, Tape.currentChar, hf.current]
    rw [perform_output, perform_output, hc, hf.tick]
    rcases device.write machine.tape.currentChar s with ⟨_ | _, t⟩ <;> rfl
  | input =>
    rw [perform_input, perform_input, hf.tick]
    rcases device.read s with ⟨e | c, t⟩
    · rfl
    · exact congrArg (fun m => (Outcome.finished m, t)) (hf.receive c machine.tick)

theorem resume (hf : KeepsView f) (r : Frame) (loops : List Frame) (machine : Machine) :
    r.resume loops (f machine) = (r.resume loops machine).map f := by
  rw [Frame.resume, Frame.resume, hf.isNonzero]
  split <;> rfl

/-- **A move from the image is the image of the move.** -/
theorem step (hf : KeepsView f) {c : Config} (hc : c.GoesAlong policies policies' f) (s : σ) :
    Config.step policies' device (c.map f) s =
      ((Config.step policies device c s).1.map f, (Config.step policies device c s).2) := by
  obtain ⟨pending, loops, machine⟩ := c
  cases pending with
  | nil =>
    cases loops with
    | nil => rfl
    | cons r loops =>
      rw [Config.map, step_frame, step_frame, hf.resume]
      rfl
  | loop body after =>
    rw [Config.map, step_loop, step_loop, hf.tick, hf.resume]
    rfl
  | act a rest =>
    have hp : device.perform policies' a (f machine) s = _ := hf.perform (hc a rest rfl) s
    rcases h : device.perform policies a machine s with ⟨next | ⟨failure, next⟩, t⟩
    · rw [h] at hp
      rw [Config.map, step_act hp, step_act h]
      rfl
    · rw [h] at hp
      rw [Config.map, step_act_failed hp, step_act_failed h]
      rfl

/-- **A run from the image is the image of the run**, whether it has ended
within the bound or not, if the actions that it comes to go along. -/
theorem runFor (hf : KeepsView f) {c : Config} {s : σ}
    (hc : ∀ n c' u, Moves policies device n c s c' u → c'.GoesAlong policies policies' f)
    (fuel : Nat) :
    Brainfuck.runFor policies' device fuel (c.map f) s =
      ((Brainfuck.runFor policies device fuel c s).1.map (Outcome.map f),
        (Brainfuck.runFor policies device fuel c s).2) := by
  induction fuel generalizing c s with
  | zero => rfl
  | succ fuel ih =>
    have hstep : Config.step policies' device (c.map f) s = _ := hf.step (hc 0 c s (.refl c s)) s
    rcases h : Config.step policies device c s with ⟨c' | outcome, t⟩
    · have hc' : ∀ n c'' u, Moves policies device n c' t c'' u →
          c''.GoesAlong policies policies' f :=
        fun n c'' u hm => hc (n + 1) c'' u (.head h hm)
      rw [h] at hstep
      rw [Nat.add_comm, (Moves.single h).runFor_add, (Moves.single hstep).runFor_add, ih hc']
    · rw [h] at hstep
      rw [runFor_of_step_ended h, runFor_of_step_ended hstep]
      rfl

end Machine.KeepsView

/-- Where every run from the image is the image of the run, it ends as the
image of a run ends. -/
theorem ends_map_iff {c : Config} {s t : σ} {outcome : Outcome ε}
    (h : ∀ fuel, runFor policies' device fuel (c.map f) s =
      ((runFor policies device fuel c s).1.map (Outcome.map f),
        (runFor policies device fuel c s).2)) :
    Ends policies' device (c.map f) s outcome t ↔
      ∃ outcome', outcome = outcome'.map f ∧ Ends policies device c s outcome' t := by
  constructor
  · rintro ⟨fuel, he⟩
    rw [h] at he
    obtain ⟨ho, ht⟩ := Prod.mk.inj he
    obtain ⟨outcome', ho', rfl⟩ := Option.map_eq_some_iff.1 ho
    exact ⟨outcome', rfl, fuel, Prod.ext ho' ht⟩
  · rintro ⟨outcome', rfl, fuel, he⟩
    exact ⟨fuel, by rw [h, he]; rfl⟩

/-! ## Symmetries -/

/-- A map of machines that a run respects: it keeps the view of a run and goes
along with every move and add. -/
structure Machine.IsSymmetry (policies : Policies) (f : Machine → Machine) : Prop
    extends KeepsView f where
  /-- What a silent action makes of a machine. -/
  silent : ∀ (a : Action) (machine : Machine), a.isSilent = true →
    ⟨a.tapeAfter policies (f machine).tape, (f machine).steps + 1⟩ =
      f ⟨a.tapeAfter policies machine.tape, machine.steps + 1⟩

namespace Machine.IsSymmetry

theorem goesAlong (hf : IsSymmetry policies f) (c : Config) : c.GoesAlong policies policies f :=
  fun a _ _ => hf.silent a c.machine

/-- **A run from the image is the image of the run**, whatever it comes to. -/
theorem runFor (hf : IsSymmetry policies f) (fuel : Nat) (c : Config) (s : σ) :
    Brainfuck.runFor policies device fuel (c.map f) s =
      ((Brainfuck.runFor policies device fuel c s).1.map (Outcome.map f),
        (Brainfuck.runFor policies device fuel c s).2) :=
  hf.toKeepsView.runFor (fun _ c' _ _ => hf.goesAlong c') fuel

/-- A run from the image ends as the image of a run ends. -/
theorem ends_iff (hf : IsSymmetry policies f) {c : Config} {s t : σ} {outcome : Outcome ε} :
    Ends policies device (c.map f) s outcome t ↔
      ∃ outcome', outcome = outcome'.map f ∧ Ends policies device c s outcome' t :=
  ends_map_iff fun fuel => hf.runFor fuel c s

end Machine.IsSymmetry

/-- **An instruction more that has been counted does nothing to a run.** -/
theorem Machine.isSymmetry_tick (policies : Policies) : IsSymmetry policies tick where
  current _ := rfl
  tick _ := rfl
  receive _ _ := rfl
  silent _ _ _ := rfl

end Brainfuck
