/-!
# Reading bytes as UTF-8

`decode` reads any bytes as text. Where they are not UTF-8, each maximal
part that begins a character and does not complete it, and each byte that
begins none, becomes one replacement character.
-/

namespace Brainfuck.Text.Utf8

/-- Stands for bytes that are no character. -/
def replacement : Char := '\ufffd'

/-- A character of which some bytes have been read: the bits so far, the
number of bytes that are missing, and the range of the next one. -/
structure Begun where
  code : Nat
  missing : Nat
  lower : UInt8
  upper : UInt8
  deriving DecidableEq, Repr

/-- What a byte at the start of a character comes to. -/
def first (b : UInt8) : List Char × Option Begun :=
  if b < 0x80 then ([Char.ofNat b.toNat], none)
  else if b < 0xc2 then ([replacement], none)
  else if b < 0xe0 then ([], some ⟨b.toNat - 0xc0, 1, 0x80, 0xbf⟩)
  else if b < 0xf0 then
    ([], some ⟨b.toNat - 0xe0, 2, if b = 0xe0 then 0xa0 else 0x80, if b = 0xed then 0x9f else 0xbf⟩)
  else if b < 0xf5 then
    ([], some ⟨b.toNat - 0xf0, 3, if b = 0xf0 then 0x90 else 0x80, if b = 0xf4 then 0x8f else 0xbf⟩)
  else ([replacement], none)

/-- What a further byte comes to. A byte that does not go on with the
character that was begun begins another. -/
def further (s : Begun) (b : UInt8) : List Char × Option Begun :=
  if s.lower ≤ b ∧ b ≤ s.upper then
    let code := s.code * 64 + (b.toNat - 0x80)
    if s.missing ≤ 1 then ([Char.ofNat code], none)
    else ([], some ⟨code, s.missing - 1, 0x80, 0xbf⟩)
  else
    let (cs, s) := first b
    (replacement :: cs, s)

/-- Decodes the bytes after those of a character that was begun. -/
def decodeFrom : Option Begun → List UInt8 → List Char
  | none, [] => []
  | some _, [] => [replacement]
  | none, b :: rest =>
    let (cs, s) := first b
    cs ++ decodeFrom s rest
  | some s, b :: rest =>
    let (cs, s) := further s b
    cs ++ decodeFrom s rest

/-- The text of bytes. -/
def decode (data : List UInt8) : List Char := decodeFrom none data

end Brainfuck.Text.Utf8
