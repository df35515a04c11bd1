import Brainfuck.Program
import Brainfuck.Overflow
/-!
# Fusing instructions

A pass goes through a program from left to right and fuses neighbouring
moves, and neighbouring adds, into one instruction of the same effect.
Output, input and loops stand between neighbours. Loop bodies are treated
alike, and a loop whose body comes out empty is left out. What the pass
itself brings together is for the next pass: `optimize` repeats passes
until one changes nothing or the budget is spent.

Which neighbours fuse depends on the policies that the machine is known to
have. Where a bound wraps, any two amounts add up. Where it clamps, going
down and up again may end elsewhere, so only amounts that point the same
way are fused.
-/

namespace Brainfuck

/-! ## Fusing two actions -/

/-- Whether two amounts, neither of them zero, point the same way. -/
def sameWay (x y : Int) : Bool := decide (0 < x) == decide (0 < y)

/-- The one move that does what two do, if there is one for every tape with
the given policy. -/
def fuseMoves? (policy : Overflow) (x y : Int) : Option Int :=
  match policy with
  | .wrap => some (x + y)
  | .clamp =>
    if x = 0 then some y
    else if y = 0 then some x
    else if sameWay x y then some (x + y)
    else none

/-- The one add that does what two do, if there is one for every cell with
the given policy. The fused amount has to be the signed amount of a byte. -/
def fuseAdds? (policy : Overflow) (d e : UInt8) : Option UInt8 :=
  match policy with
  | .wrap => some (d + e)
  | .clamp =>
    if d = 0 then some e
    else if e = 0 then some d
    else if sameWay (signed d) (signed e) ∧
        -128 ≤ signed d + signed e ∧ signed d + signed e ≤ 127 then some (d + e)
    else none

namespace Action

/-- The action that stands for two in a row, where they fuse. -/
def fuse? (policies : Policies) : Action → Action → Option Action
  | .move x, .move y => (fuseMoves? policies.tape x y).map .move
  | .add d, .add e => (fuseAdds? policies.cell d e).map .add
  | _, _ => none

/-- Whether an action changes nothing. -/
def isIdle : Action → Bool
  | .move n => n == 0
  | .add d => d == 0
  | .output => false
  | .input => false

end Action

namespace Program

/-- Puts an action in front, unless it changes nothing. -/
def keep (a : Action) (p : Program) : Program := if a.isIdle then p else act a p

/-- A pass over the program that is left, with the action that the run so
far has been fused into. -/
def fuseFrom (policies : Policies) (a : Action) : Program → Program
  | nil => keep a nil
  | act b r =>
    match a.fuse? policies b with
    | some c => fuseFrom policies c r
    | none => keep a (fuseFrom policies b r)
  | loop b r => keep a (keepLoop (fuseFrom policies (.move 0) b) (fuseFrom policies (.move 0) r))

/-- One pass. The run before the first instruction is a move by nothing. -/
def pass (policies : Policies) (p : Program) : Program := fuseFrom policies (.move 0) p

/-- At most `limit` passes: the program that each of them produces, up to
and including the first that changes nothing. -/
def passes (policies : Policies) : (limit : Nat) → Program → List Program
  | 0, _ => []
  | limit + 1, p =>
    let q := pass policies p
    if same q p then [q] else q :: passes policies limit q

end Program

/-! ## Budgets -/

/-- How many passes there are. -/
inductive Budget where
  /-- As many as it takes until one changes nothing. -/
  | untilStable
  /-- No more than this. -/
  | atMost (passes : Nat)
  deriving DecidableEq, Repr

/-- The refusal of a negative number of passes. -/
structure NegativeBudget where
  count : Int
  deriving DecidableEq, Repr

/-- What is said about a negative number of passes. -/
def NegativeBudget.message (e : NegativeBudget) : String :=
  "max_iterations must be >= 0, got " ++ toString e.count

namespace Budget

/-- The budget of a number of passes, where zero stands for no limit. -/
def ofNat : Nat → Budget
  | 0 => untilStable
  | n + 1 => atMost (n + 1)

/-- `ofNat` for an integer. -/
def ofInt (count : Int) : Except NegativeBudget Budget :=
  if 0 ≤ count then .ok (ofNat count.toNat) else .error ⟨count⟩

/-- The number of passes that a budget allows. A pass that changes a program
shortens it, so one more than its size is no limit. -/
def limit (p : Program) : Budget → Nat
  | untilStable => p.size + 1
  | atMost n => n

end Budget

namespace Program

/-- Passes until one changes nothing or the budget is spent. -/
def optimize (policies : Policies) (budget : Budget) (p : Program) : Program :=
  (passes policies (budget.limit p) p).getLast?.getD p

/-- The programs after each of `n` passes in a row, changes or not. -/
def iterates (policies : Policies) : (n : Nat) → Program → List Program
  | 0, _ => []
  | n + 1, p =>
    let q := pass policies p
    q :: iterates policies n q

end Program

end Brainfuck
