import Brainfuck.Program.Fusion
import Brainfuck.Program.Parse
import Brainfuck.Execution
/-!
# Options of a run

A run takes the size of the tape, the policies of tape and cells, and
whether the program is optimized first. The optimizer assumes the very
policies that the machine has.
-/

namespace Brainfuck

/-- How a program is compiled and run. -/
structure Options where
  tapeSize : Nat
  policies : Policies := {}
  /-- The budget of the optimizer, if it is on. -/
  optimization : Option Budget := none
  tapeSize_pos : 0 < tapeSize

/-- Why options are refused. -/
inductive InvalidOption where
  | tapeSize (value : Int)
  | optimize (value : Int)
  deriving DecidableEq, Repr

/-- What is said about refused options. -/
def InvalidOption.message : InvalidOption → String
  | tapeSize n => "tape_size must be positive, got " ++ toString n
  | optimize n => "optimize must be None or >= 0, got " ++ toString n

namespace Options

/-- Options from integers. The size of the tape is looked at first. -/
def ofIntegers (tapeSize : Int) (policies : Policies) (optimize : Option Int) :
    Except InvalidOption Options :=
  if h : 0 < tapeSize then
    match optimize with
    | none => .ok { tapeSize := tapeSize.toNat, policies, tapeSize_pos := Tape.toNat_size_pos h }
    | some n =>
      if 0 ≤ n then
        .ok { tapeSize := tapeSize.toNat, policies, optimization := some (.ofNat n.toNat),
              tapeSize_pos := Tape.toNat_size_pos h }
      else .error (.optimize n)
  else .error (.tapeSize tapeSize)

/-- A tape of the usual size, both policies wrapping, and no optimizer. -/
def default : Options := { tapeSize := Tape.defaultSize, tapeSize_pos := by decide }

/-- The machine at the start of a run. -/
def machine (o : Options) : Machine := ⟨.blank o.tapeSize o.tapeSize_pos, 0⟩

/-- The programs after each pass of the optimizer, if it is on. -/
def passes (o : Options) (p : Program) : List Program :=
  match o.optimization with
  | none => []
  | some budget => p.passes o.policies (budget.limit p)

/-- What is run for a program: the program itself, or what the optimizer
makes of it. -/
def compile (o : Options) (p : Program) : Program :=
  match o.optimization with
  | none => p
  | some budget => p.optimize o.policies budget

/-- Parses a source and compiles its program. -/
def compileSource (o : Options) (source : List Reply) : Except ParseError Program :=
  (Program.ofReplies source).map o.compile

/-- Parses a source text, in UTF-8, and compiles its program. -/
def compileText (o : Options) (text : String) : Except ParseError Program :=
  (Program.parseText text).map o.compile

/-- Runs a compiled program from the start. -/
def run {m : Type → Type} [Monad m] {ε : Type} (o : Options) (device : Device m ε) (fuel : Nat)
    (p : Program) : m (Option (Outcome ε)) :=
  Brainfuck.run o.policies device fuel p o.machine

end Options

/-- How a source came off: it did not compile, or its program ran. -/
inductive SourceOutcome (ε : Type) where
  | rejected (error : ParseError)
  | ran (program : Program) (outcome : Outcome ε)

/-- Parses and compiles a source, and runs it if it is a program. -/
def Options.runSource {m : Type → Type} [Monad m] {ε : Type} (o : Options) (device : Device m ε)
    (fuel : Nat) (source : List Reply) : m (Option (SourceOutcome ε)) :=
  match Program.ofReplies source with
  | .error e => pure (some (.rejected e))
  | .ok p => do
    let program := o.compile p
    match ← o.run device fuel program with
    | none => pure none
    | some outcome => pure (some (.ran program outcome))

end Brainfuck
