import Brainfuck.Device
/-!
# A device in memory

A `Buffer` holds all of its input from the start and keeps what is written.
It fails only where there is nothing left to read.
-/

namespace Brainfuck

/-- Input that is all there at the start, and the output so far. -/
structure Buffer where
  unread : List Char
  written : String := ""
  deriving DecidableEq, Repr

/-- Reads a given text and keeps what is written. -/
def Buffer.device : Device (StateM Buffer) CharFailure where
  read := fun b =>
    match b with
    | ⟨[], written⟩ => (.error .exhausted, ⟨[], written⟩)
    | ⟨c :: cs, written⟩ => (.ok c, ⟨cs, written⟩)
  write c := fun b =>
    match b with
    | ⟨unread, written⟩ => (.ok (), ⟨unread, written.push c⟩)

end Brainfuck
