import Brainfuck.Modular
import Brainfuck.Overflow
/-!
# The tape

A tape has a fixed positive number of byte cells and a cursor on one of
them; that the cursor is on the tape is part of the type. At the ends of
the tape, and at the bounds of a cell, an operation follows its policy.

Amounts are arbitrary integers. An operation that cannot be carried out
reports a `Tape.Fault` and leaves the tape as it was; `Tape.Operation`
names all of them.
-/

namespace Brainfuck

/-! ## The cursor -/

/-- Where a cursor on a tape of `size` cells gets to by going right. -/
def Overflow.right (policy : Overflow) (size cursor : Nat) (shift : Int) : Nat :=
  match policy with
  | .wrap => (addMod cursor shift size).toNat
  | .clamp => (min ((size : Int) - 1) (cursor + shift)).toNat

/-- Where a cursor on a tape of `size` cells gets to by going left. -/
def Overflow.left (policy : Overflow) (size cursor : Nat) (shift : Int) : Nat :=
  match policy with
  | .wrap => (subMod cursor shift size).toNat
  | .clamp => (max 0 ((cursor : Int) - shift)).toNat

theorem Overflow.right_lt {policy : Overflow} {size cursor : Nat} {shift : Int}
    (hc : cursor < size) : policy.right size cursor shift < size := by
  cases policy
  · have := addMod_lt (show (0 : Int) < size by omega) cursor shift
    have := addMod_nonneg (show (0 : Int) < size by omega) cursor shift
    simp only [right]
    omega
  · simp only [right]
    omega

theorem Overflow.left_lt {policy : Overflow} {size cursor : Nat} {shift : Int}
    (hc : cursor < size) (hs : 0 ≤ shift) : policy.left size cursor shift < size := by
  cases policy
  · have := subMod_lt (show (0 : Int) < size by omega) cursor shift
    have := subMod_nonneg (show (0 : Int) < size by omega) cursor shift
    simp only [left]
    omega
  · simp only [left]
    omega

/-! ## The value of a cell -/

/-- The largest value of a cell. -/
def cellMax : Int := 255

/-- What adding an amount to a value comes to. A clamped cell stops at its
largest value only, so a negative amount may lead below zero. -/
def Overflow.sum (policy : Overflow) (value amount : Int) : Int :=
  match policy with
  | .wrap => addMod value amount (cellMax + 1)
  | .clamp => min cellMax (value + amount)

/-- What subtracting an amount from a value comes to. A clamped cell stops
at zero only, so a negative amount may lead above its largest value. -/
def Overflow.difference (policy : Overflow) (value amount : Int) : Int :=
  match policy with
  | .wrap => subMod value amount (cellMax + 1)
  | .clamp => max 0 (value - amount)

/-! ## Tapes -/

/-- Byte cells and a cursor on one of them. -/
@[ext] structure Tape where
  cells : Array UInt8
  cursor : Nat
  cursor_lt : cursor < cells.size

namespace Tape

/-- Why an operation cannot be carried out. -/
inductive Fault where
  /-- A shift counts steps in its own direction and is not negative. -/
  | negativeShift (shift : Int)
  /-- The value does not fit a cell. -/
  | cellOverflow
  /-- A cell takes exactly one character. -/
  | notOneCharacter
  deriving DecidableEq, Repr

/-- What is said about a fault, where anything is. -/
def Fault.message? : Fault → Option String
  | .negativeShift n => some ("Shift must be non-negative, got " ++ toString n)
  | .cellOverflow => none
  | .notOneCharacter => none

/-- The refusal of a tape without cells. -/
structure InvalidSize where
  size : Int
  deriving DecidableEq, Repr

/-- What is said about a size that no tape has. -/
def InvalidSize.message (e : InvalidSize) : String :=
  "Tape size must be positive, got " ++ toString e.size

/-- The number of cells. -/
def size (t : Tape) : Nat := t.cells.size

theorem size_pos (t : Tape) : 0 < t.size := Nat.lt_of_le_of_lt (Nat.zero_le _) t.cursor_lt

/-- The tape of `size` zero cells, cursor on the first. -/
def blank (size : Nat) (size_pos : 0 < size) : Tape :=
  ⟨Array.replicate size 0, 0, by simpa using size_pos⟩

theorem toNat_size_pos {size : Int} (h : 0 < size) : 0 < size.toNat := by omega

/-- The blank tape of a size given as an integer. -/
def ofSize (size : Int) : Except InvalidSize Tape :=
  if h : 0 < size then .ok (blank size.toNat (toNat_size_pos h)) else .error ⟨size⟩

/-- The number of cells of a tape that is made when none is asked for. -/
def defaultSize : Nat := 30000

/-- The value under the cursor. -/
def current : Tape → UInt8
  | ⟨cells, cursor, _⟩ => cells[cursor]

/-- The value under the cursor as a character. -/
def currentChar (t : Tape) : Char := Char.ofUInt8 t.current

/-- Whether the value under the cursor is not zero. -/
def isNonzero (t : Tape) : Bool := t.current != 0

/-- Puts a value under the cursor. -/
def put (v : UInt8) : Tape → Tape
  | ⟨cells, cursor, h⟩ => ⟨cells.set cursor v h, cursor, by simpa using h⟩

/-- All cells zero and the cursor on the first. -/
def reset (t : Tape) : Tape := blank t.size t.size_pos

/-! ## Operations -/

/-- Goes left by a number of cells. -/
def moveLeft (policy : Overflow) (shift : Int) : EStateM Fault Tape Unit
  | ⟨cells, cursor, h⟩ =>
    if hs : 0 ≤ shift then
      .ok () ⟨cells, policy.left cells.size cursor shift, Overflow.left_lt h hs⟩
    else .error (.negativeShift shift) ⟨cells, cursor, h⟩

/-- Goes right by a number of cells. -/
def moveRight (policy : Overflow) (shift : Int) : EStateM Fault Tape Unit
  | ⟨cells, cursor, h⟩ =>
    if 0 ≤ shift then .ok () ⟨cells, policy.right cells.size cursor shift, Overflow.right_lt h⟩
    else .error (.negativeShift shift) ⟨cells, cursor, h⟩

/-- Puts an integer under the cursor, where it fits a cell. -/
def store (value : Int) : EStateM Fault Tape Unit := fun t =>
  if 0 ≤ value ∧ value ≤ cellMax then .ok () (t.put (UInt8.ofNat value.toNat))
  else .error .cellOverflow t

/-- Adds to the current cell. -/
def add (policy : Overflow) (amount : Int) : EStateM Fault Tape Unit := fun t =>
  store (policy.sum t.current.toNat amount) t

/-- Subtracts from the current cell. -/
def subtract (policy : Overflow) (amount : Int) : EStateM Fault Tape Unit := fun t =>
  store (policy.difference t.current.toNat amount) t

/-- The cell a character is kept in: its code point modulo 256. -/
def cellOfChar (c : Char) : UInt8 := UInt8.ofNat (c.toNat % 256)

/-- Reads a character into the current cell. -/
def readChar (c : Char) (t : Tape) : Tape := t.put (cellOfChar c)

/-- Reads a text into the current cell, where it is one character. -/
def readText (s : String) : EStateM Fault Tape Unit := fun t =>
  match s.toList with
  | [c] => .ok () (t.readChar c)
  | _ => .error .notOneCharacter t

/-- Everything that can be asked of a tape. -/
inductive Operation where
  | moveLeft (shift : Int)
  | moveRight (shift : Int)
  | add (amount : Int)
  | subtract (amount : Int)
  | readText (s : String)
  | writeChar
  | isNonzero
  | reset
  deriving DecidableEq, Repr

/-- What an operation answers. -/
inductive Answer where
  | nothing
  | char (c : Char)
  | truth (b : Bool)
  deriving DecidableEq, Repr

/-- Carries out an operation. -/
def Operation.perform (policies : Policies) : Operation → EStateM Fault Tape Answer
  | .moveLeft n => do Tape.moveLeft policies.tape n; return .nothing
  | .moveRight n => do Tape.moveRight policies.tape n; return .nothing
  | .add v => do Tape.add policies.cell v; return .nothing
  | .subtract v => do Tape.subtract policies.cell v; return .nothing
  | .readText s => do Tape.readText s; return .nothing
  | .writeChar => return .char (← get).currentChar
  | .isNonzero => return .truth (← get).isNonzero
  | .reset => do modify Tape.reset; return .nothing

/-! ## What a single operation does -/

@[simp] theorem size_put (v : UInt8) (t : Tape) : (t.put v).size = t.size := by
  cases t
  simp [put, size]

@[simp] theorem cursor_put (v : UInt8) (t : Tape) : (t.put v).cursor = t.cursor := by
  cases t
  rfl

@[simp] theorem current_put (v : UInt8) (t : Tape) : (t.put v).current = v := by
  cases t
  simp [put, current]

@[simp] theorem size_blank (n : Nat) (h : 0 < n) : (blank n h).size = n := by
  simp [blank, size]

@[simp] theorem size_reset (t : Tape) : t.reset.size = t.size := by
  simp [reset]

end Tape

end Brainfuck
