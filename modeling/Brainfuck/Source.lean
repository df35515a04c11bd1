import Brainfuck.Symbol
/-!
# Reading a source

A source is read byte by byte from something that answers requests: with
bytes, with a failure, or with something that is no bytes at all. A
`Source` turns the bytes into commands, one `Option Symbol` for each byte,
and keeps the position of the last byte that was consumed.

To learn whether the source has ended, one byte is requested ahead of what
was consumed, and never more. The first end of the source is final.
-/

namespace Brainfuck

/-- The answer to a request for the next byte. -/
inductive Reply where
  /-- Bytes, of which the first is used; no bytes are the end of the source. -/
  | bytes (data : List UInt8)
  | failure (reason : String)
  /-- A value of another type. -/
  | foreign (typeName : String)
  deriving DecidableEq, Repr

/-- Why a request brought no byte. -/
inductive ReadError where
  | failed (reason : String)
  | notBytes (typeName : String)
  deriving DecidableEq, Repr

/-- What is said about a request that brought no byte. -/
def ReadError.message : ReadError → String
  | failed reason => "Error when reading a token: " ++ reason
  | notBytes typeName => "Lexer needs a binary reader, read() returned " ++ typeName

/-- Where a byte is in its source: its index, and its line and column counted
from one. -/
structure Position where
  offset : Int
  line : Nat
  column : Nat
  deriving DecidableEq, Repr

/-- The position before the first byte. -/
def Position.start : Position := ⟨-1, 1, 0⟩

/-- The position of the next byte; after a line feed it begins a line. -/
def Position.next (p : Position) (afterNewline : Bool) : Position :=
  if afterNewline then ⟨p.offset + 1, p.line + 1, 1⟩ else ⟨p.offset + 1, p.line, p.column + 1⟩

/-- What is known about the byte after the last one consumed. -/
inductive Lookahead where
  | unread
  | ready (byte : UInt8)
  | ended
  deriving DecidableEq, Repr

/-- A source, read up to some byte. -/
structure Source where
  /-- The answers to the requests still to come; after them the source ends. -/
  replies : List Reply
  lookahead : Lookahead := .unread
  position : Position := .start
  afterNewline : Bool := false
  deriving DecidableEq, Repr

namespace Source

/-- A source of which nothing is read. -/
def ofReplies (replies : List Reply) : Source := { replies }

/-- A source of bytes. -/
def ofBytes (data : List UInt8) : Source := ofReplies (data.map fun b => .bytes [b])

/-- No more bytes than this can still be consumed. -/
def remaining (s : Source) : Nat :=
  s.replies.length +
    match s.lookahead with
    | .ready _ => 1
    | _ => 0

/-- Requests a byte, unless one is ready or the source has ended. A request
that fails is used up. -/
def request : EStateM ReadError Source Unit := fun s =>
  match s.lookahead, s.replies with
  | .unread, [] => .ok () { s with lookahead := .ended }
  | .unread, .bytes [] :: rest => .ok () { s with replies := rest, lookahead := .ended }
  | .unread, .bytes (b :: _) :: rest => .ok () { s with replies := rest, lookahead := .ready b }
  | .unread, .failure reason :: rest => .error (.failed reason) { s with replies := rest }
  | .unread, .foreign typeName :: rest => .error (.notBytes typeName) { s with replies := rest }
  | _, _ => .ok () s

/-- Whether the source has ended. -/
def atEnd : EStateM ReadError Source Bool := do
  request
  return (← get).lookahead = .ended

/-- Consumes a byte. -/
def consume (b : UInt8) (s : Source) : Source :=
  { s with
    lookahead := .unread
    position := s.position.next s.afterNewline
    afterNewline := b = 10 }

/-- Consumes the next byte, if there is one, and says which command it is. -/
def next : EStateM ReadError Source (Option Symbol) := do
  request
  match (← get).lookahead with
  | .ready b =>
    modify (consume b)
    return Symbol.ofByte? b
  | _ => return none

/-- Consumes at most `n` bytes and says which commands they are. Nothing is
requested beyond them. -/
def take : (n : Nat) → EStateM ReadError Source (List (Option Symbol))
  | 0 => return []
  | n + 1 => do
    if ← atEnd then return []
    let symbol ← next
    return symbol :: (← take n)

/-- Consumes all that is left. One more than remains is never consumed, but
asking for it finds the end. -/
def drain : EStateM ReadError Source (List (Option Symbol)) := do
  take ((← get).remaining + 1)

end Source

end Brainfuck
