/-!
# Text as bytes

The encodings a source text may be given in. Where an encoding has no
bytes for a character the text cannot be encoded.
-/

namespace Brainfuck.Text

/-- A way to write text as bytes. -/
inductive Encoding where
  | utf8
  /-- One byte for each of the first 256 code points. -/
  | latin1
  /-- One byte for each of the first 128 code points. -/
  | ascii
  /-- Two bytes for each unit of 16 bits, the low byte first. -/
  | utf16
  deriving DecidableEq, Repr

namespace Encoding

/-- The bytes of a code point, if it is below a bound. -/
def single? (bound : Nat) (c : Char) : Option (List UInt8) :=
  if c.toNat < bound then some [UInt8.ofNat c.toNat] else none

/-- The two bytes of a unit. -/
def unit (n : Nat) : List UInt8 := [UInt8.ofNat (n % 256), UInt8.ofNat (n / 256)]

/-- The units of a character: one, or a pair beyond the first plane. -/
def units (c : Char) : List UInt8 :=
  if c.toNat < 0x10000 then unit c.toNat
  else
    let rest := c.toNat - 0x10000
    unit (0xd800 + rest / 1024) ++ unit (0xdc00 + rest % 1024)

/-- The bytes of a character. -/
def bytes? : Encoding → Char → Option (List UInt8)
  | utf8, c => some (String.singleton c).toUTF8.toList
  | latin1, c => single? 256 c
  | ascii, c => single? 128 c
  | utf16, c => some (units c)

/-- The bytes of a text. -/
def encode? (e : Encoding) (s : String) : Option (List UInt8) :=
  (s.toList.mapM e.bytes?).map List.flatten

end Encoding

end Brainfuck.Text
