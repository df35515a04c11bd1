import Brainfuck.Program
import Brainfuck.Tape
import Brainfuck.Device
/-!
# Running a program

A run works on a `Config`: the instructions that come next, the loops it
is inside of, and the machine. Every instruction is counted when it is
reached and then acts; a loop is counted once, however often its body is
repeated. `runFor` carries out a bounded number of moves of the
configuration, each of them a `Config.step`, and answers `none` where the
bound is too small; `run` starts it on a program and `execute` on a single
instruction.

`Exec` says the same by the structure of the program: see
`Brainfuck.Execution.BigStep`.
-/

namespace Brainfuck

/-- What a run works on: the tape and the number of instructions so far. -/
structure Machine where
  tape : Tape
  steps : Nat := 0

/-- What is noted of a machine on the way. -/
structure Snapshot where
  steps : Nat
  cursor : Nat
  current : UInt8
  deriving DecidableEq, Repr

/-- Why a run stopped early. -/
inductive Failure (ε : Type) where
  | fault (fault : Tape.Fault)
  | device (error : ε)
  deriving DecidableEq, Repr

/-- How a run ended, and the machine it left. -/
inductive Outcome (ε : Type) where
  | finished (machine : Machine)
  | failed (failure : Failure ε) (machine : Machine)

namespace Outcome

variable {ε : Type}

/-- The machine at the end. -/
def machine : Outcome ε → Machine
  | finished m => m
  | failed _ m => m

/-- The failure, if any. -/
def failure? : Outcome ε → Option (Failure ε)
  | finished _ => none
  | failed f _ => some f

end Outcome

/-! ## Actions -/

namespace Machine

/-- Counts an instruction. -/
def tick : Machine → Machine
  | ⟨tape, steps⟩ => ⟨tape, steps + 1⟩

/-- Stores a character that was read. -/
def receive (c : Char) : Machine → Machine
  | ⟨tape, steps⟩ => ⟨tape.readChar c, steps⟩

/-- The instructions so far, and the cell under the cursor. -/
def snapshot (m : Machine) : Snapshot := ⟨m.steps, m.tape.cursor, m.tape.current⟩

/-- What an action comes to, once it is counted. -/
inductive Effect where
  /-- It is done. -/
  | done (machine : Machine)
  /-- It is impossible. -/
  | fault (fault : Tape.Fault) (machine : Machine)
  /-- It is done once the character is written. -/
  | write (c : Char) (machine : Machine)
  /-- It is done once a character is read and received. -/
  | read (machine : Machine)

/-- The effect of an operation on the tape. -/
def onTape (operation : EStateM Tape.Fault Tape Unit) : Machine → Effect
  | ⟨tape, steps⟩ =>
    match operation tape with
    | .ok _ tape => .done ⟨tape, steps⟩
    | .error f tape => .fault f ⟨tape, steps⟩

/-- The operation of a move: to the right, or to the left if negative. -/
def moveBy (policy : Overflow) (shift : Int) : EStateM Tape.Fault Tape Unit :=
  if 0 ≤ shift then Tape.moveRight policy shift else Tape.moveLeft policy (-shift)

/-- The operation of an add: by its signed amount, up or down. -/
def changeBy (policy : Overflow) (delta : UInt8) : EStateM Tape.Fault Tape Unit :=
  if 0 ≤ signed delta then Tape.add policy (signed delta)
  else Tape.subtract policy (-signed delta)

/-- Counts an action and works out its effect. -/
def act (policies : Policies) (a : Action) (m : Machine) : Effect :=
  match a with
  | .move n => m.tick.onTape (moveBy policies.tape n)
  | .add d => m.tick.onTape (changeBy policies.cell d)
  | .output => let m := m.tick; .write m.tape.currentChar m
  | .input => .read m.tick

end Machine

section

variable {m : Type → Type} [Monad m] {ε : Type}

/-- Carries an effect out. A failed call leaves the machine as it was when
the call was made. -/
def Device.carryOut (device : Device m ε) : Machine.Effect → m (Outcome ε)
  | .done machine => pure (.finished machine)
  | .fault f machine => pure (.failed (.fault f) machine)
  | .write c machine => do
    match ← device.write c with
    | .ok () => pure (.finished machine)
    | .error e => pure (.failed (.device e) machine)
  | .read machine => do
    match ← device.read with
    | .ok c => pure (.finished (machine.receive c))
    | .error e => pure (.failed (.device e) machine)

/-- Counts an action and carries it out. -/
def Device.perform (device : Device m ε) (policies : Policies) (a : Action) (machine : Machine) :
    m (Outcome ε) :=
  device.carryOut (machine.act policies a)

end

/-! ## Runs -/

/-- A loop under way: its body, and what comes after it. -/
structure Frame where
  body : Program
  after : Program
  deriving DecidableEq, Repr

/-- What comes next, the loops it is inside of (innermost first), and the
machine. -/
structure Config where
  pending : Program
  loops : List Frame
  machine : Machine

/-- The configuration in which a program starts. -/
def Config.start (p : Program) (machine : Machine) : Config := ⟨p, [], machine⟩

/-- At the end of a loop's body: once more, or on to what comes after. -/
def Frame.resume (f : Frame) (loops : List Frame) (machine : Machine) : Config :=
  if machine.tape.isNonzero then ⟨f.body, f :: loops, machine⟩ else ⟨f.after, loops, machine⟩

/-- Reaches a loop: it is counted, and entered if the current cell is not
zero. -/
def Config.enter (body after : Program) (loops : List Frame) (machine : Machine) : Config :=
  Frame.resume ⟨body, after⟩ loops machine.tick

/-- What a move comes to: another configuration, or the end of the run. -/
inductive Step (ε : Type) where
  | next (config : Config)
  | ended (outcome : Outcome ε)

section

variable {m : Type → Type} [Monad m] {ε : Type}

/-- Carries out one move of a configuration. -/
@[inline] def Config.step (policies : Policies) (device : Device m ε) : Config → m (Step ε)
  | ⟨.nil, [], machine⟩ => pure (.ended (.finished machine))
  | ⟨.nil, f :: loops, machine⟩ => pure (.next (f.resume loops machine))
  | ⟨.loop body after, loops, machine⟩ => pure (.next (.enter body after loops machine))
  | ⟨.act a rest, loops, machine⟩ => do
    match ← device.perform policies a machine with
    | .finished machine => pure (.next ⟨rest, loops, machine⟩)
    | .failed f machine => pure (.ended (.failed f machine))

/-- Carries out at most `fuel` moves of a configuration. -/
@[specialize] def runFor (policies : Policies) (device : Device m ε) :
    (fuel : Nat) → Config → m (Option (Outcome ε))
  | 0, _ => pure none
  | fuel + 1, c => do
    match ← c.step policies device with
    | .next c => runFor policies device fuel c
    | .ended outcome => pure (some outcome)

/-- Runs a program. -/
@[inline] def run (policies : Policies) (device : Device m ε) (fuel : Nat) (p : Program)
    (machine : Machine) : m (Option (Outcome ε)) :=
  runFor policies device fuel (.start p machine)

/-- Executes one instruction: an action is performed, a loop is run. -/
def execute (policies : Policies) (device : Device m ε) (fuel : Nat) (i : Instruction)
    (machine : Machine) : m (Option (Outcome ε)) :=
  match i with
  | .act a => do return some (← device.perform policies a machine)
  | .loop body => run policies device fuel (.loop body .nil) machine

/-- Executes instructions one after the other up to the first failure, and
notes the machine after each success. -/
def executeEach (policies : Policies) (device : Device m ε) (fuel : Nat) :
    List Instruction → Machine → m (List Snapshot × Option (Outcome ε))
  | [], machine => pure ([], some (.finished machine))
  | i :: rest, machine => do
    match ← execute policies device fuel i machine with
    | some (.finished machine) =>
      let snapshot := machine.snapshot
      let (snapshots, outcome) ← executeEach policies device fuel rest machine
      return (snapshot :: snapshots, outcome)
    | stopped => return ([], stopped)

end

end Brainfuck
