import Brainfuck.Program
/-!
# The log of the command line

On request the command line notes what it does: the program it read, the
passes of the optimizer, the run, and the file it wrote. Each note names
the part of the work that it comes from.
-/

namespace Brainfuck.CommandLine

/-- Something worth a note. -/
inductive Event where
  /-- A source was read. -/
  | parsed (program : Program)
  /-- A pass of the optimizer, numbered from one. -/
  | pass (number before after : Nat)
  | optimized (before after : Nat)
  /-- A run came to its end, in so many milliseconds. -/
  | executed (steps : Nat) (milliseconds : String)
  | wrote (size : Nat) (path : String)

namespace Event

/-- The part of the work that a note comes from. -/
def source : Event → String
  | parsed _ => "bfrun.parser"
  | pass _ _ _ => "bfrun.optimizer"
  | optimized _ _ => "bfrun.api"
  | executed _ _ => "bfrun.api"
  | wrote _ _ => "bfrun.cli"

/-- What is noted. -/
def message : Event → String
  | parsed p => "parsed " ++ toString p.length ++ " top-level instructions: " ++ p.text
  | pass n before after =>
    "pass " ++ toString n ++ ": " ++ toString before ++ " -> " ++ toString after ++ " instructions"
  | optimized before after =>
    "optimized " ++ toString before ++ " -> " ++ toString after ++ " instructions"
  | executed steps ms =>
    "executed " ++ toString steps ++ " instructions in " ++ ms ++ " ms"
  | wrote size path => "wrote " ++ toString size ++ " bytes of tape data to " ++ path

/-- The line of a note. -/
def line (e : Event) : String := "DEBUG " ++ e.source ++ ": " ++ e.message

/-- The notes of the passes that led from a program to each of `results`, the
first of them numbered `n`. -/
def ofPasses (p : Program) (n : Nat) : List Program → List Event
  | [] => []
  | q :: rest => .pass n p.count q.count :: ofPasses q (n + 1) rest

end Event

end Brainfuck.CommandLine
