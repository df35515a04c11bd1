import Brainfuck.Program
import Brainfuck.Source
/-!
# Parsing

Parsing goes once through the symbols of a source. It keeps the
instructions of the body it is in, and for every open loop the
instructions before it and the position of its bracket. A loop that turns
out empty when it is closed is left out.

A closing bracket without a loop to close is reported where it stands,
with nothing read beyond it; at the end of the source the innermost loop
that is still open is reported.
-/

namespace Brainfuck

/-- A bracket without its partner, and where it stands. -/
inductive BracketError where
  | unmatchedEnd (position : Position)
  | unmatchedStart (position : Position)
  deriving DecidableEq, Repr

/-- Why a source is not a program. -/
inductive ParseError where
  | bracket (error : BracketError)
  | read (error : ReadError)
  deriving DecidableEq, Repr

/-- The action that a command other than a bracket stands for. -/
def Symbol.action? : Symbol → Option Action
  | .increment => some (.add 1)
  | .decrement => some (.add 255)
  | .shiftLeft => some (.move (-1))
  | .shiftRight => some (.move 1)
  | .output => some .output
  | .input => some .input
  | .loopStart => none
  | .loopEnd => none

/-- A loop whose closing bracket is still to come: the instructions before
it, latest first, and the position of its bracket. -/
structure OpenLoop where
  before : List Instruction
  position : Position
  deriving DecidableEq, Repr

/-- A source parsed so far: the instructions of the innermost open body,
latest first, and the open loops, innermost first. -/
structure Draft where
  body : List Instruction := []
  loops : List OpenLoop := []
  deriving DecidableEq, Repr

namespace Draft

/-- The program of a body. -/
def program (body : List Instruction) : Program := .ofList body.reverse

/-- Appends an instruction. -/
def push (i : Instruction) (d : Draft) : Draft := { d with body := i :: d.body }

/-- Opens a loop. -/
def openLoop (position : Position) (d : Draft) : Draft := ⟨[], ⟨d.body, position⟩ :: d.loops⟩

/-- Closes the innermost loop, and leaves it out if it is empty. -/
def closeLoop (position : Position) (d : Draft) : Except BracketError Draft :=
  match d.loops with
  | [] => .error (.unmatchedEnd position)
  | l :: loops =>
    if d.body.isEmpty then .ok ⟨l.before, loops⟩
    else .ok ⟨.loop (program d.body) :: l.before, loops⟩

/-- Takes the symbol of the byte at a position. -/
def feed (position : Position) (symbol : Option Symbol) (d : Draft) : Except BracketError Draft :=
  match symbol with
  | none => .ok d
  | some .loopStart => .ok (d.openLoop position)
  | some .loopEnd => d.closeLoop position
  | some s =>
    match s.action? with
    | some a => .ok (d.push (.act a))
    | none => .ok d

/-- The program at the end of the source. -/
def finish (d : Draft) : Except BracketError Program :=
  match d.loops with
  | [] => .ok (program d.body)
  | l :: _ => .error (.unmatchedStart l.position)

end Draft

namespace Source

/-- A computation on the source, with its failure among those of parsing. -/
def reading {α : Type} (x : EStateM ReadError Source α) : EStateM ParseError Source α := fun s =>
  match x s with
  | .ok a s => .ok a s
  | .error e s => .error (.read e) s

/-- A check on brackets, with its failure among those of parsing. -/
def checking {α : Type} : Except BracketError α → EStateM ParseError Source α
  | .ok a => pure a
  | .error e => throw (.bracket e)

/-- Feeds at most `n` bytes to a draft. -/
def feedTo (d : Draft) : (n : Nat) → EStateM ParseError Source Draft
  | 0 => return d
  | n + 1 => do
    if ← reading atEnd then return d
    let symbol ← reading next
    let d ← checking (d.feed (← get).position symbol)
    feedTo d n

/-- Parses what is left of the source. -/
def parse : EStateM ParseError Source Program := do
  let d ← feedTo {} ((← get).remaining + 1)
  checking d.finish

/-! ## Operations -/

/-- Everything that can be asked of a source. -/
inductive Operation where
  | atEnd
  | next
  | take (n : Nat)
  | drain
  | parse
  deriving DecidableEq, Repr

/-- What an operation answers. -/
inductive Answer where
  | truth (b : Bool)
  | symbol (s : Option Symbol)
  | symbols (symbols : List (Option Symbol))
  | program (p : Program)
  deriving DecidableEq, Repr

/-- Carries out an operation. -/
def Operation.perform : Operation → EStateM ParseError Source Answer
  | .atEnd => return .truth (← reading Source.atEnd)
  | .next => return .symbol (← reading Source.next)
  | .take n => return .symbols (← reading (Source.take n))
  | .drain => return .symbols (← reading Source.drain)
  | .parse => return .program (← Source.parse)

end Source

namespace Program

/-- The program of the answers to the requests for a source. -/
def ofReplies (replies : List Reply) : Except ParseError Program :=
  match Source.parse (.ofReplies replies) with
  | .ok p _ => .ok p
  | .error e _ => .error e

/-- The program of a source of bytes. -/
def parse (data : List UInt8) : Except ParseError Program :=
  ofReplies (data.map fun b => .bytes [b])

/-- The program of a source text, in UTF-8. -/
def parseText (text : String) : Except ParseError Program :=
  parse text.toUTF8.toList

end Program

end Brainfuck
