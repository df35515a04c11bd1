/-!
# The eight commands

A source is a sequence of bytes; eight of them are commands and the rest
are comment. `Symbol.ofByte?` reads a byte, `Symbol.byte` and
`Symbol.toChar` write one, and `ofByte?_eq_some_iff` says the two agree.
-/

namespace Brainfuck

/-- One command of the language. -/
inductive Symbol where
  | increment
  | decrement
  | shiftLeft
  | shiftRight
  | loopStart
  | loopEnd
  | output
  | input
  deriving DecidableEq, Repr

namespace Symbol

/-- The character a command is written as. -/
def toChar : Symbol → Char
  | increment => '+'
  | decrement => '-'
  | shiftLeft => '<'
  | shiftRight => '>'
  | loopStart => '['
  | loopEnd => ']'
  | output => '.'
  | input => ','

/-- The byte a command is written as. -/
def byte (s : Symbol) : UInt8 := s.toChar.toUInt8

/-- The command a byte stands for; every other byte is comment. -/
def ofByte? (b : UInt8) : Option Symbol :=
  if b = 43 then some increment
  else if b = 45 then some decrement
  else if b = 60 then some shiftLeft
  else if b = 62 then some shiftRight
  else if b = 91 then some loopStart
  else if b = 93 then some loopEnd
  else if b = 46 then some output
  else if b = 44 then some input
  else none

/-- `ofByte?` for an arbitrary integer: outside the byte range nothing is a
command. -/
def ofCode? (code : Int) : Option Symbol :=
  if 0 ≤ code ∧ code < 256 then ofByte? (UInt8.ofNat code.toNat) else none

/-- Reading a written command gives it back. -/
@[simp] theorem ofByte?_byte (s : Symbol) : ofByte? s.byte = some s := by
  cases s <;> decide

/-- A byte is a command exactly when it is the byte of that command. -/
theorem ofByte?_eq_some_iff {b : UInt8} {s : Symbol} : ofByte? b = some s ↔ b = s.byte := by
  constructor
  · intro h
    unfold ofByte? at h
    repeat' split at h
    all_goals first
      | (cases h; subst_vars; rfl)
      | cases h
  · rintro rfl
    exact ofByte?_byte s

end Symbol

/-- Commands as source text. -/
def Symbol.text (symbols : List Symbol) : String :=
  String.ofList (symbols.map Symbol.toChar)

end Brainfuck
