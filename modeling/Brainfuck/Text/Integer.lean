import Brainfuck.Text.Digit
/-!
# Integers in text

An integer is written as decimal digits with an optional sign. Blanks may
stand around it, and single underscores between two digits. A text of more
than `digitLimit` digits is refused whatever its value.
-/

namespace Brainfuck.Text

/-- The most digits that are read. -/
def digitLimit : Nat := 4300

/-- Digits separated by at most one underscore, the first of them next;
`value` and `count` are those of the digits before. -/
def readDigits (value count : Nat) : List Char → Option (Nat × Nat)
  | [] => none
  | c :: rest =>
    match digitValue? c, rest with
    | none, _ => none
    | some d, [] => some (10 * value + d, count + 1)
    | some d, '_' :: rest => readDigits (10 * value + d) (count + 1) rest
    | some d, rest => readDigits (10 * value + d) (count + 1) rest

/-- A number without a sign, within the limit of digits. -/
def readNatural (s : List Char) : Option Nat :=
  match readDigits 0 0 s with
  | some (value, count) => if count ≤ digitLimit then some value else none
  | none => none

/-- A text without the blanks around it. -/
def trimBlanks (s : List Char) : List Char :=
  ((s.dropWhile isBlank).reverse.dropWhile isBlank).reverse

/-- The integer that a text writes. -/
def readInteger (s : List Char) : Option Int :=
  match trimBlanks s with
  | '-' :: rest => (readNatural rest).map fun n => -(n : Int)
  | '+' :: rest => (readNatural rest).map fun n => (n : Int)
  | rest => (readNatural rest).map fun n => (n : Int)

end Brainfuck.Text
