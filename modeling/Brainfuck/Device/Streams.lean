import Brainfuck.Device
/-!
# A device over streams

`Streams` are what a terminal offers: characters to read, text to write,
and a way to pass on what was written. Any of these calls may fail. The
device over them passes on what was written after every character, and
before it waits for another one.
-/

namespace Brainfuck

/-- A stream of characters in and a stream of text out. A call that fails
says why. -/
structure Streams (m : Type → Type) where
  /-- The next character, or `none` at the end of the input. -/
  read : m (Except String (Option Char))
  write : String → m (Except String Unit)
  flush : m (Except String Unit)

/-- The device over streams. Only a failure to pass on before a read is none
of reading or writing a character. -/
def Streams.device {m : Type → Type} [Monad m] (s : Streams m) : Device m CharFailure where
  read := do
    match ← s.flush with
    | .error reason => return .error (.flush reason)
    | .ok () =>
      match ← s.read with
      | .error reason => return .error (.input reason)
      | .ok none => return .error .exhausted
      | .ok (some c) => return .ok c
  write c := do
    match ← s.write (String.singleton c) with
    | .error reason => return .error (.output reason)
    | .ok () =>
      match ← s.flush with
      | .error reason => return .error (.output reason)
      | .ok () => return .ok ()

end Brainfuck
