import Brainfuck.CommandLine.Log
import Brainfuck.CommandLine.Usage
import Brainfuck.Device.Script
import Brainfuck.Diagnostic
import Brainfuck.Disk
import Brainfuck.Dump
import Brainfuck.Options
import Brainfuck.Text.Utf8
/-!
# The command line

`CommandLine.main` reads its arguments, compiles the source, prints or
runs the program, and writes the tape. Everything it touches is a
`System`: the streams, the files, and the messages. It is the terminal in
`Brainfuck.Main`, and `World` is a system that is a value.

A failure of the source, of the run or of a file is reported as a message
and gives exit code 1; refused arguments give 2. What is left is an
`Abort`.
-/

namespace Brainfuck.CommandLine

/-- What the command line works with. -/
structure System (m : Type → Type) where
  streams : Streams m
  isDirectory : String → m Bool
  /-- The answers to the requests for the bytes of a file. -/
  openSource : String → m (Except FileError (List Reply))
  /-- The whole of a file, if it can be read. -/
  content? : String → m (Option (List UInt8))
  create : String → List UInt8 → m (Except FileError Unit)
  /-- Prints a message. -/
  report : String → m Unit
  /-- Starts a clock; it says how many milliseconds have passed. -/
  stopwatch : m (m String)

/-- What ends the command without a message. -/
inductive Abort where
  /-- A switch was given the separator in place of its value. -/
  | missingValue
  /-- The dump could not be written to the output stream. -/
  | dumpFailed (reason : String)
  /-- A path holds a zero character. -/
  | zeroCharacter
  /-- The source answered with something that is no bytes. -/
  | foreignSource (error : ReadError)
  /-- The tape refused an instruction. -/
  | tape (fault : Tape.Fault)
  deriving DecidableEq, Repr

/-- How the command ends. -/
inductive Exit where
  | code (n : Nat)
  | aborted (reason : Abort)
  deriving DecidableEq, Repr

/-- The command comes to its end, or the bound on its run is too small. -/
abbrev Ending := Option Exit

/-- What the optimizer is asked for: nothing for zero, no limit for a
negative number, and otherwise so many passes. -/
def passCount (n : Int) : Option Int :=
  if n = 0 then none else if n < 0 then some 0 else some n

namespace Arguments

/-- The policies that the arguments ask for. -/
def policies (a : Arguments) : Policies where
  tape := if a.clampTape then .clamp else .wrap
  cell := if a.clampCells then .clamp else .wrap

/-- The format of a dump to a file. -/
def fileFormat (a : Arguments) : DumpFormat :=
  match a.format with
  | some f => .numbers f
  | none => .raw

end Arguments

namespace System

variable {m : Type → Type} [Monad m]

/-- Ends with a message and an exit code. -/
def stop (sys : System m) (code : Nat) (message : String) : m Ending := do
  sys.report message
  return some (.code code)

/-- Ends with the message of a failure. -/
def fail (sys : System m) (message : String) : m Ending := sys.stop 1 ("Error: " ++ message)

/-- Ends with the failure of a file. -/
def failFile (sys : System m) (e : FileError) : m Ending :=
  if e.fault = .zeroCharacter then return some (.aborted .zeroCharacter)
  else sys.fail e.message

/-- Notes events, if they are asked for. -/
def note (sys : System m) (a : Arguments) (events : List Event) : m Unit :=
  if a.verbose then events.forM fun e => sys.report e.line else pure ()

/-- Ends with the report of a diagnostic, the source at hand if it can be
read again. -/
def failWith (sys : System m) (file : String) (d : Diagnostic) : m Ending := do
  let content ← sys.content? file
  sys.stop 1 (d.render (content.map fun data => String.ofList (Text.Utf8.decode data)))

/-- Writes the tape, to a file or, if only a format is asked for, to the
output stream. -/
def writeTape (sys : System m) (a : Arguments) (cells : List UInt8) : m Ending := do
  match a.output, a.format with
  | none, none => return some (.code 0)
  | none, some f =>
    let dump := Dump.text f (Dump.trimZeros cells)
    match ← sys.streams.write ("\n" ++ String.ofList dump) with
    | .ok () => return some (.code 0)
    | .error reason => return some (.aborted (.dumpFailed reason))
  | some none, _ => return some (.aborted .missingValue)
  | some (some path), _ =>
    let data := Dump.bytes a.fileFormat true cells
    match ← sys.create path data with
    | .error e => sys.failFile e
    | .ok () =>
      sys.note a [.wrote data.length path]
      return some (.code 0)

/-- Runs a compiled program and writes the tape it leaves. -/
def runProgram (sys : System m) (fuel : Nat) (a : Arguments) (o : Options) (file : String)
    (program : Program) : m Ending := do
  let elapsed ← sys.stopwatch
  match ← o.run sys.streams.device fuel program with
  | none => return none
  | some (.failed (.device e) _) =>
    match e.diagnostic? with
    | some d => sys.failWith file d
    | none => sys.fail e.message
  | some (.failed (.fault f) _) => return some (.aborted (.tape f))
  | some (.finished machine) =>
    sys.note a [.executed machine.steps (← elapsed)]
    sys.writeTape a machine.tape.cells.toList

/-- Compiles the source, and prints the program or runs it. -/
def runFile (sys : System m) (fuel : Nat) (a : Arguments) (o : Options) (file : String) :
    m Ending := do
  match ← sys.openSource file with
  | .error e => sys.failFile e
  | .ok source =>
    match Program.ofReplies source with
    | .error (.bracket e) => sys.failWith file e.diagnostic
    | .error (.read e) =>
      match e.diagnostic? with
      | some d => sys.failWith file d
      | none => return some (.aborted (.foreignSource e))
    | .ok p =>
      let program := o.compile p
      sys.note a [.parsed p]
      if o.optimization.isSome then
        sys.note a (Event.ofPasses p 1 (o.passes p) ++ [.optimized p.count program.count])
      if a.emit then
        match ← sys.streams.write (program.text ++ "\n") with
        | .ok () => return some (.code 0)
        | .error reason => sys.fail reason
      else sys.runProgram fuel a o file program

/-- Does what the arguments ask for. -/
def runArguments (sys : System m) (fuel : Nat) (a : Arguments) : m Ending := do
  match a.file with
  | none => sys.fail "No file has been specified"
  | some file =>
    if ← sys.isDirectory file then sys.fail "Source code path is a directory."
    else
      match a.size, a.optimize with
      | none, _ => return some (.aborted .missingValue)
      | some size, optimize =>
        if size ≤ 0 then sys.fail ("tape size must be positive, got " ++ toString size)
        else
          match optimize with
          | none => return some (.aborted .missingValue)
          | some n =>
            match Options.ofIntegers size a.policies (passCount n) with
            | .error e => sys.fail e.message
            | .ok o => sys.runFile fuel a o file

/-- The command. -/
def main (sys : System m) (fuel : Nat) (argv : List String) : m Ending := do
  match Arguments.ofList argv with
  | .error .help =>
    let _ ← sys.streams.write help
    return some (.code 0)
  | .error (.usage e) => sys.stop 2 e.report
  | .ok a => sys.runArguments fuel a

end System

/-! ## A system that is a value -/

/-- The streams, the files, and the messages so far. -/
structure World where
  script : Script
  disk : Disk := {}
  messages : String := ""
  deriving DecidableEq, Repr

namespace World

/-- A call on the streams of a script, as one on its world. -/
def onScript {α : Type} (call : StateM Script α) : StateM World α := fun w =>
  let (a, script) := call w.script
  (a, { w with script })

/-- The system of a world. Its clock always says `elapsed`. -/
def system (elapsed : String) : System (StateM World) where
  streams :=
    { read := onScript Script.streams.read
      write := fun text => onScript (Script.streams.write text)
      flush := onScript Script.streams.flush }
  isDirectory path := return (← get).disk.isDirectory path
  openSource path := return ((← get).disk.read path).map fun data => data.map fun b => .bytes [b]
  content? path := return ((← get).disk.read path).toOption
  create path data := fun w =>
    match w.disk.create path data with
    | .error e => (.error e, w)
    | .ok disk => (.ok (), { w with disk })
  report message := modify fun w => { w with messages := w.messages ++ message ++ "\n" }
  stopwatch := return (return elapsed)

end World

end Brainfuck.CommandLine
