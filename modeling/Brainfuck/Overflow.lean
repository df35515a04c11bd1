/-!
# Policies at the bounds

A tape has two ends, and a cell has a least and a largest value. What
happens beyond them is a matter of policy, for the tape and for its cells
separately.
-/

namespace Brainfuck

/-- What happens beyond a bound. -/
inductive Overflow where
  /-- Go on from the opposite bound. -/
  | wrap
  /-- Stay at the bound. -/
  | clamp
  deriving DecidableEq, Repr, Inhabited

/-- What happens at the ends of the tape and at the bounds of a cell. -/
structure Policies where
  tape : Overflow := .wrap
  cell : Overflow := .wrap
  deriving DecidableEq, Repr, Inhabited

end Brainfuck
