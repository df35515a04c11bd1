import Brainfuck.Program.Parse
import Brainfuck.Device
import Brainfuck.Text.Split
/-!
# Diagnostics

A diagnostic says what went wrong with a source or a run. `render` writes
it as a report: a category and a message; for a fault in the source its
line and column and, where the source is at hand, the lines around it with
a mark; and a hint where there is one.
-/

namespace Brainfuck

/-- The two brackets of a loop. -/
inductive Bracket where
  | opening
  | closing
  deriving DecidableEq, Repr

/-- What input or output is made of. -/
inductive Channel where
  | source
  | input
  | output
  deriving DecidableEq, Repr

/-- What a diagnostic is about. -/
inductive Subject where
  | general
  /-- The source: a bracket without partner, if it is known, and its place. -/
  | syntactic (unmatched : Option Bracket) (line column : Int)
  /-- Input or output, on a channel if it is known. -/
  | transfer (channel : Option Channel)
  deriving DecidableEq, Repr

/-- What went wrong. -/
structure Diagnostic where
  subject : Subject
  message : String
  deriving DecidableEq, Repr

namespace Diagnostic

/-- The category that a report begins with. -/
def category (d : Diagnostic) : String :=
  match d.subject with
  | .general => "Error"
  | .syntactic _ _ _ => "ParseError"
  | .transfer (some .source) => "SourceIOError"
  | .transfer _ => "RuntimeIOError"

/-- What may be done about it. -/
def hint? (d : Diagnostic) : Option String :=
  match d.subject with
  | .syntactic (some .closing) _ _ =>
    some "Remove the extra \"]\" or add the \"[\" that should open this loop."
  | .syntactic (some .opening) _ _ =>
    some "Add the \"]\" that closes this loop. The marked \"[\" is the innermost one left open."
  | .transfer (some .input) =>
    some "The program reads more characters than were supplied on stdin."
  | _ => none

/-! ## The lines around a place -/

/-- A line of the source in a report. -/
structure ContextRow where
  marked : Bool
  number : Nat
  content : List Char
  deriving DecidableEq, Repr

/-- The text of a row: the mark, the number in at least four columns, and
the line. -/
def ContextRow.text (r : ContextRow) : List Char :=
  let number := (toString r.number).toList
  (if r.marked then '>' else ' ') :: ' ' :: List.replicate (4 - number.length) ' ' ++ number ++
    [' ', '|', ' '] ++ r.content

/-- The line that stands for `line`, which may be any integer: the first one
for everything below. -/
def shownLine (line : Int) : Nat := max 1 line.toNat

/-- The rows from two lines before a line to two lines after it, as far as
there are any. -/
def context (source : List Char) (line : Int) : List ContextRow :=
  let shown := shownLine line
  ((Text.lines source).zipIdx 1).filterMap fun (content, number) =>
    if shown ≤ number + 2 ∧ number ≤ shown + 2 then some ⟨number == shown, number, content⟩
    else none

/-- The text of the lines around a line. -/
def contextText (source : List Char) (line : Int) : List Char :=
  ['\n'].intercalate ((context source line).map ContextRow.text)

/-! ## The report -/

/-- The report of a diagnostic, with the source if it is at hand. -/
def render (source : Option String) (d : Diagnostic) : String :=
  let head := d.category ++ ": " ++ d.message
  let place :=
    match d.subject with
    | .syntactic _ line column =>
      " (line " ++ toString line ++ ", column " ++ toString column ++ ")" ++
        match source with
        | some s => "\n" ++ String.ofList (contextText s.toList line)
        | none => ""
    | _ => ""
  let hint :=
    match d.hint? with
    | some h => "\nHint: " ++ h
    | none => ""
  head ++ place ++ hint

end Diagnostic

/-! ## The diagnostics of failures -/

namespace BracketError

/-- The bracket without its partner. -/
def bracket : BracketError → Bracket
  | unmatchedEnd _ => .closing
  | unmatchedStart _ => .opening

/-- Where it stands. -/
def position : BracketError → Position
  | unmatchedEnd p => p
  | unmatchedStart p => p

/-- The command it is. -/
def symbol : BracketError → Symbol
  | unmatchedEnd _ => .loopEnd
  | unmatchedStart _ => .loopStart

/-- What is said about it. -/
def message : BracketError → String
  | unmatchedEnd _ => "Error: ']' found with no matching '['."
  | unmatchedStart _ => "Error: '[' found with no matching ']'."

/-- Its diagnostic. -/
def diagnostic (e : BracketError) : Diagnostic :=
  ⟨.syntactic (some e.bracket) e.position.line e.position.column, e.message⟩

end BracketError

/-- The diagnostic of a request that brought no byte. A value of another
type is not the fault of the source and has none. -/
def ReadError.diagnostic? (e : ReadError) : Option Diagnostic :=
  match e with
  | .failed _ => some ⟨.transfer (some .source), e.message⟩
  | .notBytes _ => none

/-- The diagnostic of a source that is not a program. -/
def ParseError.diagnostic? : ParseError → Option Diagnostic
  | .bracket e => some e.diagnostic
  | .read e => e.diagnostic?

namespace CharFailure

/-- What is said about a character that could not be read or written. -/
def message : CharFailure → String
  | exhausted => "Input exhausted while the program was reading a character."
  | input reason => "Failed to read a character: " ++ reason
  | output reason => "Failed to write a character: " ++ reason
  | flush reason => reason

/-- Its diagnostic. Output that could not be passed on before a read is
reported as the failure it is. -/
def diagnostic? (e : CharFailure) : Option Diagnostic :=
  match e with
  | exhausted => some ⟨.transfer (some .input), e.message⟩
  | input _ => some ⟨.transfer (some .input), e.message⟩
  | output _ => some ⟨.transfer (some .output), e.message⟩
  | flush _ => none

end CharFailure

end Brainfuck
