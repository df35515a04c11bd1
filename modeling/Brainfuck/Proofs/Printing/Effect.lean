import Brainfuck.Proofs.Execution.Following
import Brainfuck.Proofs.Printing.Units
/-!
# What units do

The units of an action leave the tape that the action leaves
(`Action.tapeAfterAll_units`), whether the bounds wrap or clamp: they all
point the same way, and so what is cut off at a bound is cut off of the whole
amount as well. So a program and the program in units follow each other
(`Follows.units`, `Follows.of_units`).
-/

namespace Brainfuck

variable {σ ε : Type} {policies : Policies} {device : Device (StateM σ) ε}

/-! ## The same amount many times -/

namespace Overflow

/-- An amount points the same way as any number of it. -/
theorem aligned_mul (n : Nat) (x : Int) : Aligned x (n * x) := by
  have hn : (0 : Int) ≤ n := Int.natCast_nonneg n
  rcases Int.le_total 0 x with hx | hx
  · exact Or.inl ⟨hx, Int.mul_nonneg hn hx⟩
  · exact Or.inr ⟨hx, Int.mul_nonpos_of_nonneg_of_nonpos hn hx⟩

end Overflow

/-! ## Actions in a row -/

namespace Action

/-- The tape after silent actions in a row. -/
def tapeAfterAll (policies : Policies) (as : List Action) (t : Tape) : Tape :=
  as.foldl (fun t a => a.tapeAfter policies t) t

/-- **An action many times comes to its amount as many times**, where it
changes the tape by an amount, and amounts that do not cancel add up. -/
theorem tapeAfterAll_replicate {f : Int → Tape → Tape} {a : Action} {x : Int}
    (ha : ∀ t, a.tapeAfter policies t = f x t) (hzero : ∀ t, f 0 t = t)
    (hadd : ∀ {x y : Int}, Overflow.Aligned x y → ∀ t, f y (f x t) = f (x + y) t) (n : Nat) :
    ∀ t, tapeAfterAll policies (.replicate n a) t = f (n * x) t := by
  induction n with
  | zero =>
    intro t
    have hnothing : ((0 : Nat) : Int) * x = 0 := Int.zero_mul x
    rw [hnothing, hzero]
    rfl
  | succ n ih =>
    intro t
    have hrest := ih (f x t)
    rw [hadd (Overflow.aligned_mul n x), ← ha] at hrest
    rw [Int.natCast_succ, Int.add_mul, Int.one_mul, Int.add_comm]
    exact hrest

/-- **The units of an action do what the action does.** -/
theorem tapeAfterAll_units {a : Action} (h : a.isSilent = true) (t : Tape) :
    tapeAfterAll policies a.units t = a.tapeAfter policies t := by
  cases a with
  | move n =>
    have hn : (n.natAbs : Int) * (if 0 < n then 1 else -1) = n := by
      split <;> omega
    rw [units, ← apply_ite Action.move, tapeAfterAll_replicate (fun _ => rfl)
      (Tape.moved_zero policies.tape) (fun h => Tape.moved_add (Or.inr h)), hn]
    rfl
  | add d =>
    have hd : ((signed d).natAbs : Int) * signed (if 0 < signed d then 1 else 255) = signed d := by
      split
      · rw [show signed 1 = 1 from rfl]
        omega
      · rw [show signed 255 = -1 from rfl]
        omega
    rw [units, ← apply_ite Action.add, tapeAfterAll_replicate (fun _ => rfl)
      (Tape.raised_zero policies.cell) Tape.raised_add, hd]
    rfl
  | output => cases h
  | input => cases h

theorem isSilent_of_mem_units {a b : Action} (h : a.isSilent = true) (hb : b ∈ a.units) :
    b.isSilent = true := by
  cases a with
  | move n =>
    rw [(List.mem_replicate.mp hb).2]
    split <;> rfl
  | add d =>
    rw [(List.mem_replicate.mp hb).2]
    split <;> rfl
  | output => cases h
  | input => cases h

/-- What is not silent is its own unit. -/
theorem units_of_not_isSilent {a : Action} (h : a.isSilent = false) : a.units = [a] := by
  cases a
  case move | add => cases h
  all_goals rfl

end Action

/-- **Silent actions in a row run**, and what is left to run is the rest. -/
theorem exec_acts_iff {as : List Action} {r : Program} {s t : σ} {outcome : Outcome ε}
    (has : ∀ a ∈ as, a.isSilent = true) : ∀ machine : Machine,
    Exec policies device (.program (.acts as r)) machine s outcome t ↔
      Exec policies device (.program r)
        ⟨Action.tapeAfterAll policies as machine.tape, machine.steps + as.length⟩ s outcome t := by
  induction as with
  | nil =>
    intro machine
    rfl
  | cons a as ih =>
    intro machine
    have ha : a.isSilent = true := has a (List.mem_cons_self ..)
    have hp : device.perform policies a machine s =
        (.finished ⟨a.tapeAfter policies machine.tape, machine.steps + 1⟩, s) :=
      perform_of_isSilent ha machine s
    have hrest := ih (fun b hb => has b (List.mem_cons_of_mem _ hb))
      ⟨a.tapeAfter policies machine.tape, machine.steps + 1⟩
    rw [Nat.add_right_comm] at hrest
    constructor
    · intro h
      cases h with
      | act hp' hr =>
        rw [hp] at hp'
        cases hp'
        exact hrest.mp hr
      | actFailed hp' =>
        rw [hp] at hp'
        cases hp'
    · intro h
      exact .act hp (hrest.mpr h)

/-! ## Programs in units -/

namespace Follows

variable {r r' : Program}

/-- Two rows of silent actions that leave the same tape, in front of
programs that follow each other. -/
theorem acts {as bs : List Action} (has : ∀ a ∈ as, a.isSilent = true)
    (hbs : ∀ b ∈ bs, b.isSilent = true)
    (ht : ∀ t, Action.tapeAfterAll policies bs t = Action.tapeAfterAll policies as t)
    (h : Follows policies device r r') :
    Follows policies device (.acts as r) (.acts bs r') := by
  intro machine machine' s outcome t hm he
  have htape : Action.tapeAfterAll policies bs machine'.tape =
      Action.tapeAfterAll policies as machine.tape := by
    rw [hm, ht]
  obtain ⟨o, ho, ha⟩ := h _ ⟨_, machine'.steps + bs.length⟩ s outcome t htape
    ((exec_acts_iff has machine).mp he)
  exact ⟨o, (exec_acts_iff hbs machine').mpr ho, ha⟩

/-- An action is followed by its units. -/
theorem act_units (h : Follows policies device r r') (a : Action) :
    Follows policies device (.act a r) (.acts a.units r') := by
  cases hs : a.isSilent with
  | true =>
    have ha : ∀ b ∈ [a], b.isSilent = true := by simpa using hs
    exact acts ha (fun b hb => Action.isSilent_of_mem_units hs hb) (Action.tapeAfterAll_units hs) h
  | false =>
    rw [Action.units_of_not_isSilent hs]
    exact h.act a

/-- The units of an action are followed by it. -/
theorem units_act (h : Follows policies device r r') (a : Action) :
    Follows policies device (.acts a.units r) (.act a r') := by
  cases hs : a.isSilent with
  | true =>
    have ha : ∀ b ∈ [a], b.isSilent = true := by simpa using hs
    exact acts (fun b hb => Action.isSilent_of_mem_units hs hb) ha
      (fun t => (Action.tapeAfterAll_units hs t).symm) h
  | false =>
    rw [Action.units_of_not_isSilent hs]
    exact h.act a

/-- **A program is followed by the program in units.** -/
theorem units (p : Program) : Follows policies device p p.units := by
  induction p with
  | nil => exact nil
  | act a r ih => exact ih.act_units a
  | loop b r ihb ih => exact ihb.loop ih

/-- **The program in units is followed by the program.** -/
theorem of_units (p : Program) : Follows policies device p.units p := by
  induction p with
  | nil => exact nil
  | act a r ih => exact ih.units_act a
  | loop b r ihb ih => exact ihb.loop ih

end Follows

end Brainfuck
