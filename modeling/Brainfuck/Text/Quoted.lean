import Brainfuck.Text.Printable
/-!
# Quoted text

A text in a message stands in quotes: in single ones, unless it holds a
single quote and no double one. The quote in use and the backslash are
escaped; a character that cannot be printed is written as its code in
hexadecimal, the common controls by their letter.
-/

namespace Brainfuck.Text

/-- A number in hexadecimal, in at least `width` digits. -/
def hexadecimal (width n : Nat) : List Char :=
  let digits := Nat.toDigits 16 n
  List.replicate (width - digits.length) '0' ++ digits

/-- A character inside quotes. -/
def quoteChar (quote c : Char) : List Char :=
  if c = quote ∨ c = '\\' then ['\\', c]
  else if c = '\t' then ['\\', 't']
  else if c = '\n' then ['\\', 'n']
  else if c = '\r' then ['\\', 'r']
  else if isPrintable c then [c]
  else if c.toNat < 0x100 then '\\' :: 'x' :: hexadecimal 2 c.toNat
  else if c.toNat < 0x10000 then '\\' :: 'u' :: hexadecimal 4 c.toNat
  else '\\' :: 'U' :: hexadecimal 8 c.toNat

/-- The quote that a text is put in. -/
def quoteOf (s : List Char) : Char :=
  if s.contains '\'' && !s.contains '"' then '"' else '\''

/-- A text in quotes. -/
def quoted (s : String) : String :=
  let quote := quoteOf s.toList
  String.ofList (quote :: s.toList.flatMap (quoteChar quote) ++ [quote])

end Brainfuck.Text
