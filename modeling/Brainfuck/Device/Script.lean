import Brainfuck.Device.Streams
/-!
# Streams with planned failures

A `Script` is a pair of streams in memory. Its plan says which calls fail,
by their number; every call counts, also one that fails.
-/

namespace Brainfuck

/-- What an input stream holds: text, or raw bytes that are read one by one
as the characters of their code. -/
inductive StreamInput where
  | text (unread : List Char)
  | raw (unread : List UInt8)
  deriving DecidableEq, Repr

/-- Takes the next character. -/
def StreamInput.next : StreamInput → Option Char × StreamInput
  | .text [] => (none, .text [])
  | .text (c :: cs) => (some c, .text cs)
  | .raw [] => (none, .raw [])
  | .raw (b :: bs) => (some (Char.ofUInt8 b), .raw bs)

/-- The calls, numbered from zero and each kind on its own, that fail. -/
structure FailurePlan where
  reads : List Nat := []
  writes : List Nat := []
  flushes : List Nat := []
  deriving DecidableEq, Repr

/-- Streams in memory. A failed read takes nothing from the input and a
failed write adds nothing to the output; every call counts. -/
structure Script where
  input : StreamInput
  plan : FailurePlan := {}
  written : String := ""
  reads : Nat := 0
  writes : Nat := 0
  flushes : Nat := 0
  deriving DecidableEq, Repr

namespace Script

/-- The text of a planned failure. -/
def failure (call : String) (number : Nat) : String :=
  call ++ " " ++ toString number ++ " failed"

/-- The streams of a script. -/
def streams : Streams (StateM Script) where
  read := fun s =>
    let number := s.reads
    if number ∈ s.plan.reads then (.error (failure "read" number), { s with reads := number + 1 })
    else
      let (c, input) := s.input.next
      (.ok c, { s with reads := number + 1, input := input })
  write text := fun s =>
    let number := s.writes
    if number ∈ s.plan.writes then
      (.error (failure "write" number), { s with writes := number + 1 })
    else (.ok (), { s with writes := number + 1, written := s.written ++ text })
  flush := fun s =>
    let number := s.flushes
    if number ∈ s.plan.flushes then
      (.error (failure "flush" number), { s with flushes := number + 1 })
    else (.ok (), { s with flushes := number + 1 })

end Script

end Brainfuck
