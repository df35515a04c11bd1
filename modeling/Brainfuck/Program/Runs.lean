import Brainfuck.Program.Fusion
/-!
# Runs of moves and runs of adds

A pass, said of whole runs. Every body of a program is split into its
longest runs of moves, its longest runs of adds and single other
instructions (`Program.grouped`). Then each run is replaced by what its
amounts are fused into, and each loop by a loop around what comes of its
body, or by nothing where nothing comes of it (`Grouped.fused`). The runs are
those of the body as it was found, whatever the pass itself brings together.

A `Walk` does this without recursion. It keeps the bodies it is in, each with
what is left of it and with what it has come to, so that nesting costs no
stack. A body that ends is delivered to the one around it.
-/

namespace Brainfuck

/-! ## Fusing a run -/

/-- What a run has come to, latest first, with one more amount behind it. It
is added to the latest where the two point the same way and the sum fits. -/
def saturate (fits : Int → Bool) (out : List Int) (amount : Int) : List Int :=
  if amount = 0 then out
  else
    match out with
    | [] => [amount]
    | last :: earlier =>
      if sameWay last amount && fits (last + amount) then (last + amount) :: earlier
      else amount :: last :: earlier

/-- The amounts of a run where only those that point the same way are added
up, and only as far as the sums fit. -/
def fuseSaturating (fits : Int → Bool) (run : List Int) : List Int :=
  (run.foldl (saturate fits) []).reverse

/-- The sum of the amounts of a run. -/
def total (run : List Int) : Int := run.foldl (· + ·) 0

/-- Whether an integer is the signed amount of a byte. -/
def fitsDelta (amount : Int) : Bool := decide (-128 ≤ amount) && decide (amount ≤ 127)

/-- What a run of moves is fused into. -/
def fuseShifts (policy : Overflow) (run : List Int) : List Int :=
  match policy with
  | .wrap => if total run = 0 then [] else [total run]
  | .clamp => fuseSaturating (fun _ => true) run

/-- What a run of adds is fused into. -/
def fuseDeltas (policy : Overflow) (run : List UInt8) : List UInt8 :=
  match policy with
  | .wrap =>
    let sum := deltaOf (total (run.map fun d => (d.toNat : Int)))
    if sum = 0 then [] else [sum]
  | .clamp => (fuseSaturating fitsDelta (run.map signed)).map deltaOf

/-! ## Splitting into runs -/

/-- A program whose bodies are split into runs. -/
inductive Grouped where
  | nil
  | moves (shifts : List Int) (rest : Grouped)
  | adds (deltas : List UInt8) (rest : Grouped)
  | output (rest : Grouped)
  | input (rest : Grouped)
  | loop (body rest : Grouped)
  deriving DecidableEq, Repr

namespace Grouped

/-- The program that has been split. -/
def program : Grouped → Program
  | nil => .nil
  | moves shifts g => .acts (shifts.map .move) (program g)
  | adds deltas g => .acts (deltas.map .add) (program g)
  | output g => .act .output (program g)
  | input g => .act .input (program g)
  | loop b g => .loop (program b) (program g)

/-- Whether a run of moves comes first. -/
def beginsWithMoves : Grouped → Bool
  | moves _ _ => true
  | _ => false

/-- Whether a run of adds comes first. -/
def beginsWithAdds : Grouped → Bool
  | adds _ _ => true
  | _ => false

/-- No run is empty, and none could be longer, at any depth. -/
def IsMaximal : Grouped → Prop
  | nil => True
  | moves shifts g => shifts ≠ [] ∧ g.beginsWithMoves = false ∧ IsMaximal g
  | adds deltas g => deltas ≠ [] ∧ g.beginsWithAdds = false ∧ IsMaximal g
  | output g => IsMaximal g
  | input g => IsMaximal g
  | loop b g => IsMaximal b ∧ IsMaximal g

/-- Every run fused, and every loop around what comes of its body, or left
out. -/
def fused (policies : Policies) : Grouped → Program
  | nil => .nil
  | moves shifts g => .acts ((fuseShifts policies.tape shifts).map .move) (fused policies g)
  | adds deltas g => .acts ((fuseDeltas policies.cell deltas).map .add) (fused policies g)
  | output g => .act .output (fused policies g)
  | input g => .act .input (fused policies g)
  | loop b g => .keepLoop (fused policies b) (fused policies g)

/-- One more action in front: it joins the run of its kind, or begins one. -/
def push : Action → Grouped → Grouped
  | .move n, moves shifts g => moves (n :: shifts) g
  | .move n, g => moves [n] g
  | .add d, adds deltas g => adds (d :: deltas) g
  | .add d, g => adds [d] g
  | .output, g => output g
  | .input, g => input g

end Grouped

/-- The program split into its longest runs. -/
def Program.grouped : Program → Grouped
  | nil => .nil
  | act a r => (grouped r).push a
  | loop b r => .loop (grouped b) (grouped r)

/-! ## The walk -/

/-- The shift of a move. -/
def Action.shift? : Action → Option Int
  | move n => some n
  | _ => none

/-- The change of an add. -/
def Action.delta? : Action → Option UInt8
  | add d => some d
  | _ => none

/-- The longest run of one kind at the beginning, and what comes after it. -/
def Program.span {α : Type} (amount? : Action → Option α) : Program → List α × Program
  | act a r =>
    match amount? a with
    | some x =>
      let (run, rest) := span amount? r
      (x :: run, rest)
    | none => ([], act a r)
  | p => ([], p)

/-- A body under way: what is left of it, and what it has come to, latest
first. -/
structure Scan where
  rest : Program
  out : List Instruction := []
  deriving DecidableEq, Repr

namespace Scan

/-- Writes actions behind what a body has come to. -/
def write (actions : List Action) (s : Scan) : Scan :=
  { s with out := (actions.map .act).reverse ++ s.out }

/-- Takes what the body of a loop has come to. -/
def deliver (body : List Instruction) (s : Scan) : Scan :=
  if body.isEmpty then s else { s with out := .loop (.ofList body.reverse) :: s.out }

end Scan

/-- The body under way, and the bodies that it stands in, innermost first. -/
structure Walk where
  current : Scan
  outer : List Scan := []
  deriving DecidableEq, Repr

namespace Walk

/-- The walk in which a pass over a program starts. -/
def start (p : Program) : Walk := ⟨⟨p, []⟩, []⟩

/-- What a step comes to: another walk, or the end of it. -/
inductive Step where
  | next (walk : Walk)
  | done (p : Program)
  deriving DecidableEq, Repr

/-- One step: over a run or a single instruction, into the body of a loop, or
out of a body at its end. -/
def step (policies : Policies) : Walk → Step
  | ⟨⟨.nil, out⟩, []⟩ => .done (.ofList out.reverse)
  | ⟨⟨.nil, out⟩, s :: outer⟩ => .next ⟨s.deliver out, outer⟩
  | ⟨⟨.loop b r, out⟩, outer⟩ => .next ⟨⟨b, []⟩, ⟨r, out⟩ :: outer⟩
  | ⟨⟨.act (.move n) r, out⟩, outer⟩ =>
    let (run, rest) := r.span Action.shift?
    .next ⟨Scan.write ((fuseShifts policies.tape (n :: run)).map .move) ⟨rest, out⟩, outer⟩
  | ⟨⟨.act (.add d) r, out⟩, outer⟩ =>
    let (run, rest) := r.span Action.delta?
    .next ⟨Scan.write ((fuseDeltas policies.cell (d :: run)).map .add) ⟨rest, out⟩, outer⟩
  | ⟨⟨.act a r, out⟩, outer⟩ => .next ⟨Scan.write [a] ⟨r, out⟩, outer⟩

/-- At most `fuel` steps. -/
def runFor (policies : Policies) : (fuel : Nat) → Walk → Option Program
  | 0, _ => none
  | fuel + 1, w =>
    match w.step policies with
    | .next w => runFor policies fuel w
    | .done p => some p

end Walk

end Brainfuck
