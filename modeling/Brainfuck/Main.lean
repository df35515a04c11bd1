import Brainfuck.CommandLine.Run
/-!
# The program

The command line at the terminal: standard input is read byte by byte,
files are those of the file system, and messages go to standard error.
-/

namespace Brainfuck.Terminal

open CommandLine

/-- The text of an error. -/
def reason (e : IO.Error) : String := toString e

/-- A call, with its error as an answer. -/
def attempt {α : Type} (call : IO α) : IO (Except String α) := do
  match ← call.toBaseIO with
  | .ok a => return .ok a
  | .error e => return .error (reason e)

/-- The fault of a path that could not be opened. -/
def fault : IO.Error → FileFault
  | .noFileOrDirectory _ _ _ => .notFound
  | .inappropriateType _ code _ => if code = 20 then .notDirectory else .isDirectory
  | .permissionDenied _ code details => .other code.toNat details
  | e => .other 5 (reason e)

/-- A call on a file, with its error as an answer. -/
def onFile {α : Type} (path : String) (call : IO α) : IO (Except FileError α) := do
  match ← call.toBaseIO with
  | .ok a => return .ok a
  | .error e => return .error ⟨fault e, path⟩

/-- Standard input, byte by byte, and standard output. -/
def streams : IO (Streams IO) := do
  let stdin ← IO.getStdin
  let stdout ← IO.getStdout
  return {
    read := attempt do
      let data ← stdin.read 1
      return data.toList.head?.map Char.ofUInt8
    write := fun text => attempt (stdout.putStr text)
    flush := attempt stdout.flush }

/-- A number of nanoseconds in milliseconds, to two places. -/
def milliseconds (nanoseconds : Nat) : String :=
  let hundredths := (nanoseconds + 5000) / 10000
  let places := toString (hundredths % 100)
  toString (hundredths / 100) ++ "." ++ (if places.length < 2 then "0" else "") ++ places

/-- The system at the terminal. -/
def system : IO (System IO) := do
  let stderr ← IO.getStderr
  return {
    streams := ← streams
    isDirectory := fun path => do
      match ← onFile path (do (← IO.FS.realPath path).isDir) with
      | .ok answer => return answer
      | .error _ => return false
    openSource := fun path => onFile path do
      let data ← IO.FS.readBinFile path
      return data.toList.map fun b => .bytes [b]
    content? := fun path => do
      match ← onFile path (IO.FS.readBinFile path) with
      | .ok data => return some data.toList
      | .error _ => return none
    create := fun path data => onFile path (IO.FS.writeBinFile path ⟨data.toArray⟩)
    report := fun message => stderr.putStrLn message
    stopwatch := do
      let start ← IO.monoNanosNow
      return do return milliseconds ((← IO.monoNanosNow) - start) }

end Brainfuck.Terminal

/-- Runs the command on the arguments of the process. -/
def main (argv : List String) : IO UInt32 := do
  let sys ← Brainfuck.Terminal.system
  match ← sys.main (1 <<< 62) argv with
  | some (.code n) => return n.toUInt32
  | _ => return 1
