/-!
# Devices for characters

A program reads and writes single characters. `Device m ε` is where they
come from and go to: in a monad `m`, with failures `ε`. The monad is a
state monad for the devices of this library and `IO` at the terminal.

`Device.recorded` notes every call and its answer, in order.
-/

namespace Brainfuck

/-- Reads and writes one character at a time. -/
structure Device (m : Type → Type) (ε : Type) where
  read : m (Except ε Char)
  write : Char → m (Except ε Unit)

/-- A call with the answer it got. -/
inductive Call (ε : Type) where
  | read (answer : Except ε Char)
  | write (c : Char) (answer : Except ε Unit)

/-- The same device with a note of every call, latest first. -/
def Device.recorded {σ ε : Type} (device : Device (StateM σ) ε) :
    Device (StateM (List (Call ε) × σ)) ε where
  read := fun (calls, s) =>
    let (answer, s) := device.read s
    (answer, .read answer :: calls, s)
  write c := fun (calls, s) =>
    let (answer, s) := device.write c s
    (answer, .write c answer :: calls, s)

/-- Why a character could not be read or written. -/
inductive CharFailure where
  /-- There is no character left to read. -/
  | exhausted
  /-- The input stream failed. -/
  | input (reason : String)
  /-- The output stream failed to take a character. -/
  | output (reason : String)
  /-- The output stream failed to pass on what it had taken before the
  program waited for input. -/
  | flush (reason : String)
  deriving DecidableEq, Repr

end Brainfuck
