import Brainfuck.Text.Quoted
/-!
# Dumps of the tape

The cells of a tape are written either as they are, one byte each, or as
text: rows of numbers of fixed base, separated by blanks, each row ended
by a line feed. Zero cells at the end may be left out.
-/

namespace Brainfuck

/-- A text format: the base of the numbers. -/
inductive NumberFormat where
  | decimal
  | hex
  | binary
  deriving DecidableEq, Repr

/-- A way to write cells. -/
inductive DumpFormat where
  | raw
  | numbers (format : NumberFormat)
  deriving DecidableEq, Repr

namespace NumberFormat

/-- The base of a number. -/
def base : NumberFormat → Nat
  | decimal => 10
  | hex => 16
  | binary => 2

/-- The least number of digits. -/
def width : NumberFormat → Nat
  | decimal => 1
  | hex => 2
  | binary => 8

/-- The numbers in a row. -/
def columns : NumberFormat → Nat
  | decimal => 8
  | hex => 16
  | binary => 8

theorem columns_pos (f : NumberFormat) : 0 < f.columns := by cases f <;> decide

/-- The digits of a cell. -/
def field (f : NumberFormat) (v : UInt8) : List Char :=
  let digits := Nat.toDigits f.base v.toNat
  List.replicate (f.width - digits.length) '0' ++ digits

end NumberFormat

namespace Dump

/-- The names of the formats, in the order in which they are listed. -/
def formats : List (String × DumpFormat) :=
  [("raw", .raw), ("decimal", .numbers .decimal), ("hex", .numbers .hex),
    ("binary", .numbers .binary)]

/-- Cells without the zeros at the end. -/
def trimZeros (cells : List UInt8) : List UInt8 := (cells.reverse.dropWhile (· == 0)).reverse

/-- Cells in rows of `columns`, the last of which may be shorter. -/
def rows (columns : Nat) (columns_pos : 0 < columns) (cells : List UInt8) : List (List UInt8) :=
  match cells with
  | [] => []
  | c :: rest => (c :: rest).take columns :: rows columns columns_pos ((c :: rest).drop columns)
termination_by cells.length
decreasing_by simp only [List.length_drop, List.length_cons]; omega

/-- A row of numbers with its line feed. -/
def row (f : NumberFormat) (cells : List UInt8) : List Char :=
  [' '].intercalate (cells.map f.field) ++ ['\n']

/-- The text of cells. -/
def text (f : NumberFormat) (cells : List UInt8) : List Char :=
  (rows f.columns f.columns_pos cells).flatMap (row f)

/-- The bytes of cells in a format, with or without the zeros at the end. -/
def bytes (format : DumpFormat) (trim : Bool) (cells : List UInt8) : List UInt8 :=
  let cells := if trim then trimZeros cells else cells
  match format with
  | .raw => cells
  | .numbers f => (text f cells).map fun c => UInt8.ofNat c.toNat

/-- Why nothing can be written. -/
inductive Refusal where
  | unknownFormat (name : String)
  /-- Some value does not fit a cell. -/
  | valueOutOfRange
  deriving DecidableEq, Repr

/-- What is said about it, where anything is. -/
def Refusal.message? : Refusal → Option String
  | unknownFormat name =>
    some ("Unknown tape format: " ++ Text.quoted name ++ " (expected one of " ++
      ", ".intercalate (formats.map (·.1)) ++ ")")
  | valueOutOfRange => none

/-- Integers as cells, where all of them fit. -/
def cells? (values : List Int) : Option (List UInt8) :=
  values.mapM fun v => if 0 ≤ v ∧ v < 256 then some (UInt8.ofNat v.toNat) else none

/-- Dumps cells in a format given by name. -/
def ofCells (formatName : String) (trim : Bool) (cells : List UInt8) :
    Except Refusal (List UInt8) :=
  match formats.lookup formatName with
  | none => .error (.unknownFormat formatName)
  | some format => .ok (bytes format trim cells)

/-- Dumps integers in a format given by name. The name is looked at first. -/
def ofValues (formatName : String) (trim : Bool) (values : List Int) :
    Except Refusal (List UInt8) :=
  match formats.lookup formatName with
  | none => .error (.unknownFormat formatName)
  | some format =>
    match cells? values with
    | none => .error .valueOutOfRange
    | some cells => .ok (bytes format trim cells)

end Dump

end Brainfuck
