import Brainfuck.Proofs.Parse.Derivation
/-!
# Units

A fused move or add is printed as that many single steps, and read back as
that many instructions. `Program.units` is the program with every action
replaced by these, its units: it is the tree of what the program is printed
as (`Program.derives_symbols`). A program that is made of units alone and
has no empty loop is plain (`Program.IsPlain`); such a program is what the
parser makes of any code, and it is its own tree (`IsPlain.derives_symbols`).
-/

namespace Brainfuck

/-- The unit actions that an action stands for. -/
def Action.units : Action → List Action
  | .move n => .replicate n.natAbs (if 0 < n then .move 1 else .move (-1))
  | .add d => .replicate (signed d).natAbs (if 0 < signed d then .add 1 else .add 255)
  | .output => [.output]
  | .input => [.input]

namespace Program

/-- The program with every action replaced by its units. -/
def units : Program → Program
  | nil => nil
  | act a r => acts a.units (units r)
  | loop b r => loop (units b) (units r)

/-- Every action is that of a single command, and no loop is empty. -/
def IsPlain : Program → Prop
  | nil => True
  | act a r => (∃ s, Statement s a) ∧ IsPlain r
  | loop b r => b ≠ nil ∧ IsPlain b ∧ IsPlain r

@[simp] theorem withoutEmptyLoops_acts (as : List Action) (p : Program) :
    (acts as p).withoutEmptyLoops = acts as p.withoutEmptyLoops := by
  induction as with
  | nil => rfl
  | cons a as ih => rw [acts_cons, withoutEmptyLoops_act, ih, acts_cons]

end Program

/-! ## What is printed -/

/-- A command is printed as itself. -/
theorem Statement.symbols_eq {s : Symbol} {a : Action} (h : Statement s a) : a.symbols = [s] := by
  cases h <;> rfl

namespace Derives

variable {code : List Symbol} {tree : Program}

/-- A command some number of times, in front of a code. -/
theorem replicate {s : Symbol} {a : Action} (hs : Statement s a) (h : Derives code tree)
    (n : Nat) : Derives (.replicate n s ++ code) (Program.acts (.replicate n a) tree) := by
  induction n with
  | zero => exact h
  | succ n ih => exact .simple hs ih

/-- **An action is printed as its units.** -/
theorem symbols_append (h : Derives code tree) (a : Action) :
    Derives (a.symbols ++ code) (Program.acts a.units tree) := by
  cases a with
  | move n =>
    simp only [Action.symbols, Action.units]
    split
    · exact h.replicate .shiftRight _
    · exact h.replicate .shiftLeft _
  | add d =>
    simp only [Action.symbols, Action.units]
    split
    · exact h.replicate .increment _
    · exact h.replicate .decrement _
  | output => exact .simple .output h
  | input => exact .simple .input h

end Derives

namespace Program

/-- **What a program is printed as is a code, and its tree is the program in
units.** -/
theorem derives_symbols (p : Program) : Derives p.symbols p.units := by
  induction p with
  | nil => exact .nil
  | act a r ih => exact ih.symbols_append a
  | loop b r ihb ih => exact .loop ihb ih

/-! ## Plain programs -/

theorem IsPlain.keepLoop {b r : Program} (hb : b.IsPlain) (hr : r.IsPlain) :
    (keepLoop b r).IsPlain := by
  by_cases hn : b = nil
  · rw [hn, keepLoop_nil]
    exact hr
  · rw [keepLoop_of_ne_nil hn]
    exact ⟨hn, hb, hr⟩

/-- Nothing has to be left out of a plain program. -/
theorem IsPlain.withoutEmptyLoops_eq {p : Program} (h : p.IsPlain) :
    p.withoutEmptyLoops = p := by
  induction p with
  | nil => rfl
  | act a r ih => rw [withoutEmptyLoops_act, ih h.2]
  | loop b r ihb ih =>
    rw [withoutEmptyLoops_loop, ihb h.2.1, ih h.2.2, keepLoop_of_ne_nil h.1]

/-- A plain program is the tree of what it is printed as. -/
theorem IsPlain.derives_symbols {p : Program} (h : p.IsPlain) : Derives p.symbols p := by
  induction p with
  | nil => exact .nil
  | act a r ih =>
    obtain ⟨⟨s, hs⟩, hr⟩ := h
    rw [symbols, hs.symbols_eq]
    exact .simple hs (ih hr)
  | loop b r ihb ih => exact .loop (ihb h.2.1) (ih h.2.2)

end Program

/-- **The tree of a code without its empty loops is plain.** -/
theorem Derives.isPlain {code : List Symbol} {tree : Program} (h : Derives code tree) :
    tree.withoutEmptyLoops.IsPlain := by
  induction h with
  | nil => trivial
  | @simple s a code rest hs _ ih => exact ⟨⟨s, hs⟩, ih⟩
  | loop _ _ ihb ih => exact ihb.keepLoop ih

end Brainfuck
