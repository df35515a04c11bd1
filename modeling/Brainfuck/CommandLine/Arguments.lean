import Brainfuck.Dump
import Brainfuck.Tape
import Brainfuck.Text.Integer
import Brainfuck.Text.Quoted
/-!
# The arguments of the command line

Arguments are switches and operands. A switch has one or two names, each
with one dash and a letter or with two dashes and a word; a word may be
abbreviated as long as one name fits. A value follows its switch, or is
attached to it; letters without a value may share a dash. After the
separator `--` everything is an operand.

`classify` tells switches and operands apart, before any of them takes
effect. `Arguments.scan` then goes through them in order.
-/

namespace Brainfuck.CommandLine

/-- The switches, in the order in which they are listed. -/
inductive Switch where
  | help
  | size
  | optimize
  | clampTape
  | clampCells
  | emit
  | binary
  | hex
  | decimal
  | output
  | verbose
  deriving DecidableEq, Repr

namespace Switch

/-- All switches. -/
def all : List Switch :=
  [help, size, optimize, clampTape, clampCells, emit, binary, hex, decimal, output, verbose]

/-- The names of a switch. -/
def names : Switch → List String
  | help => ["-h", "--help"]
  | size => ["-s", "--size"]
  | optimize => ["-O", "--optimize"]
  | clampTape => ["--clamp-tape"]
  | clampCells => ["--clamp-cells"]
  | emit => ["--emit"]
  | binary => ["--binary"]
  | hex => ["--hex"]
  | decimal => ["--decimal"]
  | output => ["--output"]
  | verbose => ["-v", "--verbose"]

/-- What a switch is called in a message. -/
def title (s : Switch) : String := "/".intercalate s.names

/-- Whether a switch takes a value. -/
def takesValue : Switch → Bool
  | size => true
  | optimize => true
  | output => true
  | _ => false

/-- Every name with its switch. -/
def table : List (List Char × Switch) :=
  all.flatMap fun s => s.names.map fun name => (name.toList, s)

/-- The switch of a name. -/
def ofName? (name : List Char) : Option Switch := table.lookup name

end Switch

/-! ## Errors -/

/-- Why arguments are refused. -/
inductive UsageError where
  | ambiguous (argument : String) (candidates : List String)
  | invalidInteger (switch : Switch) (text : String)
  | missingValue (switch : Switch)
  | ignoredValue (switch : Switch) (text : String)
  | conflict (switch earlier : Switch)
  | unrecognized (arguments : List String)
  deriving DecidableEq, Repr

/-- What is said about refused arguments. -/
def UsageError.message : UsageError → String
  | ambiguous argument candidates =>
    "ambiguous option: " ++ argument ++ " could match " ++ ", ".intercalate candidates
  | invalidInteger s text =>
    "argument " ++ s.title ++ ": invalid int value: " ++ Text.quoted text
  | missingValue s => "argument " ++ s.title ++ ": expected one argument"
  | ignoredValue s text =>
    "argument " ++ s.title ++ ": ignored explicit argument " ++ Text.quoted text
  | conflict s earlier =>
    "argument " ++ s.title ++ ": not allowed with argument " ++ earlier.title
  | unrecognized arguments => "unrecognized arguments: " ++ " ".intercalate arguments

/-! ## Telling switches and operands apart -/

/-- A switch as it is written: the name in full, and the value attached to
it. -/
structure Use where
  switch : Switch
  name : List Char
  attached : Option (List Char)
  deriving DecidableEq, Repr

/-- What an argument is. -/
inductive Word where
  | operand
  /-- The separator before operands. -/
  | separator
  | switch (use : Use)
  /-- Written like a switch, but of no known name. -/
  | unknown
  deriving DecidableEq, Repr

/-- Whether an argument is written like a switch. -/
def Word.isSwitch : Word → Bool
  | switch _ => true
  | unknown => true
  | operand => false
  | separator => false

/-- A text before and after the first equals sign, if there is one. -/
def cutAtEquals (s : List Char) : Option (List Char × List Char) :=
  match s.span (· ≠ '=') with
  | (_, []) => none
  | (name, _ :: value) => some (name, value)

/-- Whether a text is written like a negative number: digits after the dash,
or any number of digits, a point and digits. A line feed may end it. -/
def looksNegative (s : List Char) : Bool :=
  let isDigit := fun c => (Text.digitValue? c).isSome
  let body := if s.getLast? = some '\n' then s.dropLast else s
  match body with
  | '-' :: rest =>
    match rest.span isDigit with
    | (digits, []) => !digits.isEmpty
    | (_, '.' :: digits) => !digits.isEmpty && digits.all isDigit
    | _ => false
  | _ => false

/-- The switches that an argument may stand for by abbreviation or with a
value attached to a letter. -/
def candidates (s : List Char) : List Use :=
  match s with
  | '-' :: '-' :: _ =>
    let (name, attached) :=
      match cutAtEquals s with
      | some (name, value) => (name, some value)
      | none => (s, none)
    Switch.table.filterMap fun (full, switch) =>
      if name.isPrefixOf full then some ⟨switch, full, attached⟩ else none
  | _ =>
    Switch.table.filterMap fun (full, switch) =>
      if full = s.take 2 then some ⟨switch, full, some (s.drop 2)⟩ else none

/-- What an argument before the separator is. -/
def classifyOne (argument : String) : Except UsageError Word :=
  let s := argument.toList
  if s.head? ≠ some '-' then .ok .operand
  else
    match Switch.ofName? s with
    | some switch => .ok (.switch ⟨switch, s, none⟩)
    | none =>
      if s.length = 1 then .ok .operand
      else
        match (cutAtEquals s).bind fun (name, value) =>
            (Switch.ofName? name).map fun switch => (⟨switch, name, some value⟩ : Use) with
        | some use => .ok (.switch use)
        | none =>
          match candidates s with
          | [use] => .ok (.switch use)
          | [] =>
            if looksNegative s || s.contains ' ' then .ok .operand else .ok .unknown
          | uses => .error (.ambiguous argument (uses.map fun u => String.ofList u.name))

/-- What every argument is. -/
def classify : List String → Except UsageError (List (String × Word))
  | [] => .ok []
  | argument :: rest =>
    if argument = "--" then .ok ((argument, .separator) :: rest.map (·, .operand))
    else do
      let word ← classifyOne argument
      return (argument, word) :: (← classify rest)

/-! ## Taking effect -/

/-- What the arguments ask for. A switch that takes a value has none if the
separator is attached to it in its place. -/
structure Arguments where
  file : Option String := none
  size : Option Int := some Tape.defaultSize
  optimize : Option Int := some 0
  clampTape : Bool := false
  clampCells : Bool := false
  emit : Bool := false
  format : Option NumberFormat := none
  /-- The file to write to, if the switch is given. -/
  output : Option (Option String) := none
  verbose : Bool := false
  deriving DecidableEq, Repr

/-- Why arguments do not lead to a run. -/
inductive Refusal where
  | help
  | usage (error : UsageError)
  deriving DecidableEq, Repr

/-- The switch of a text format. -/
def formatSwitch : NumberFormat → Switch
  | .decimal => .decimal
  | .hex => .hex
  | .binary => .binary

namespace Arguments

/-- Chooses a text format; only one may be chosen. -/
def choose (a : Arguments) (f : NumberFormat) : Except Refusal Arguments :=
  match a.format with
  | some earlier =>
    if earlier = f then .ok a
    else .error (.usage (.conflict (formatSwitch f) (formatSwitch earlier)))
  | none => .ok { a with format := some f }

/-- The integer that is the value of a switch. -/
def integer (switch : Switch) (value : List Char) : Except Refusal (Option Int) :=
  if value = ['-', '-'] then .ok none
  else
    match Text.readInteger value with
    | some n => .ok (some n)
    | none => .error (.usage (.invalidInteger switch (String.ofList value)))

/-- Lets a switch take effect. -/
def apply (a : Arguments) (switch : Switch) (value : List Char) : Except Refusal Arguments :=
  match switch with
  | .help => .error .help
  | .size => do return { a with size := ← integer .size value }
  | .optimize => do return { a with optimize := ← integer .optimize value }
  | .clampTape => .ok { a with clampTape := true }
  | .clampCells => .ok { a with clampCells := true }
  | .emit => .ok { a with emit := true }
  | .binary => a.choose .binary
  | .hex => a.choose .hex
  | .decimal => a.choose .decimal
  | .output =>
    .ok { a with output := some (if value = ['-', '-'] then none else some (String.ofList value)) }
  | .verbose => .ok { a with verbose := true }

/-- Lets switches without a value take effect. -/
def applyAll (a : Arguments) (switches : List Switch) : Except Refusal Arguments :=
  switches.foldlM (fun a s => a.apply s []) a

end Arguments

/-- The switches of one argument: those without a value, and the last one if
it takes a value, with the value if that is attached. -/
structure Cluster where
  flags : List Switch
  valued : Option (Switch × Option (List Char)) := none
  deriving DecidableEq, Repr

/-- Takes a text attached to a switch apart. After a letter without a value
its first character is the next letter. -/
def Cluster.ofAttached (switch : Switch) (letter : Bool) :
    List Char → Except UsageError Cluster
  | [] =>
    if switch.takesValue then .ok ⟨[], some (switch, some [])⟩
    else .error (.ignoredValue switch "")
  | c :: rest =>
    if switch.takesValue then .ok ⟨[], some (switch, some (c :: rest))⟩
    else
      match letter, Switch.ofName? ['-', c] with
      | true, some next =>
        if rest.isEmpty then
          if next.takesValue then .ok ⟨[switch], some (next, none)⟩ else .ok ⟨[switch, next], none⟩
        else do
          let cluster ← ofAttached next true rest
          return { cluster with flags := switch :: cluster.flags }
      | _, _ => .error (.ignoredValue switch (String.ofList (c :: rest)))

/-- The switches of one argument. -/
def Use.cluster (u : Use) : Except UsageError Cluster :=
  match u.attached with
  | none =>
    if u.switch.takesValue then .ok ⟨[], some (u.switch, none)⟩ else .ok ⟨[u.switch], none⟩
  | some text => Cluster.ofAttached u.switch (u.name[1]? ≠ some '-') text

/-- The arguments so far, whether the place of the file is taken, and what
is left over, latest first. -/
structure Progress where
  arguments : Arguments := {}
  fileTaken : Bool := false
  leftover : List String := []
  deriving DecidableEq, Repr

namespace Progress

/-- Lets a cluster take effect. -/
def apply (p : Progress) (flags : List Switch) (valued : Option (Switch × List Char)) :
    Except Refusal Progress := do
  let a ← p.arguments.applyAll flags
  match valued with
  | none => return { p with arguments := a }
  | some (switch, value) => return { p with arguments := ← a.apply switch value }

/-- An operand before a switch. -/
def operand (p : Progress) (argument : String) : Progress :=
  if p.fileTaken then { p with leftover := argument :: p.leftover }
  else { p with arguments := { p.arguments with file := some argument }, fileTaken := true }

/-- The operands at the end. The file may have the separator on either side;
all else is left over. -/
def operands (p : Progress) (words : List (String × Word)) : Progress :=
  let leave (p : Progress) (rest : List (String × Word)) : Progress :=
    { p with leftover := (rest.map (·.1)).reverse ++ p.leftover }
  if p.fileTaken then leave p words
  else
    match words with
    | (_, .separator) :: (file, _) :: rest => leave (p.operand file) rest
    | [(_, .separator)] => p
    | (file, _) :: (_, .separator) :: rest => leave (p.operand file) rest
    | (file, _) :: rest => leave (p.operand file) rest
    | [] => p

/-- Goes through the arguments in order. -/
def scan (p : Progress) (words : List (String × Word)) : Except Refusal Progress :=
  match words with
  | [] => .ok p
  | (argument, .unknown) :: rest => scan { p with leftover := argument :: p.leftover } rest
  | (_, .switch use) :: rest =>
    match use.cluster with
    | .error e => .error (.usage e)
    | .ok ⟨flags, none⟩ => do scan (← p.apply flags none) rest
    | .ok ⟨flags, some (switch, some value)⟩ => do scan (← p.apply flags (some (switch, value))) rest
    | .ok ⟨flags, some (switch, none)⟩ =>
      match rest with
      | (value, .operand) :: rest => do scan (← p.apply flags (some (switch, value.toList))) rest
      | _ => .error (.usage (.missingValue switch))
  | (argument, .operand) :: rest =>
    if rest.any (·.2.isSwitch) then scan (p.operand argument) rest
    else .ok (p.operands ((argument, .operand) :: rest))
  | (argument, .separator) :: rest => .ok (p.operands ((argument, .separator) :: rest))

end Progress

/-- Reads the arguments. What is left over is reported last.

Attached values are read as by the releases 3.11.0 to 3.11.8 of the standard
argument parser: a separator in place of a value is taken away (`--output=--`,
`-s--`), and an equals sign behind a letter without a value is passed over, so
that `-v=s5` is `-v -s5`. Later releases take the first for a value and refuse
the second. -/
def Arguments.ofList (argv : List String) : Except Refusal Arguments :=
  match classify argv with
  | .error e => .error (.usage e)
  | .ok words => do
    let p ← Progress.scan {} words
    if p.leftover.isEmpty then return p.arguments
    else .error (.usage (.unrecognized p.leftover.reverse))

end Brainfuck.CommandLine
