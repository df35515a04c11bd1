/-!
# Decimal digits and blanks

The Unicode standard, version 14, has many sets of ten decimal digits, each
of them ten code points in a row from its zero on. `digitValue?` reads a
digit of any of them. `isBlank` holds of the characters that may stand
around a number.
-/

namespace Brainfuck.Text

/-- The code points of the zeros. -/
def digitZeros : List Nat := [
  0x0030, 0x0660, 0x06f0, 0x07c0, 0x0966, 0x09e6, 0x0a66, 0x0ae6, 0x0b66, 0x0be6,
  0x0c66, 0x0ce6, 0x0d66, 0x0de6, 0x0e50, 0x0ed0, 0x0f20, 0x1040, 0x1090, 0x17e0,
  0x1810, 0x1946, 0x19d0, 0x1a80, 0x1a90, 0x1b50, 0x1bb0, 0x1c40, 0x1c50, 0xa620,
  0xa8d0, 0xa900, 0xa9d0, 0xa9f0, 0xaa50, 0xabf0, 0xff10, 0x104a0, 0x10d30, 0x11066,
  0x110f0, 0x11136, 0x111d0, 0x112f0, 0x11450, 0x114d0, 0x11650, 0x116c0, 0x11730, 0x118e0,
  0x11950, 0x11c50, 0x11d50, 0x11da0, 0x16a60, 0x16ac0, 0x16b50, 0x1d7ce, 0x1d7d8, 0x1d7e2,
  0x1d7ec, 0x1d7f6, 0x1e140, 0x1e2f0, 0x1e950, 0x1fbf0
]

/-- The value of a decimal digit. -/
def digitValue? (c : Char) : Option Nat :=
  (digitZeros.find? fun first => first ≤ c.toNat ∧ c.toNat < first + 10).map (c.toNat - ·)

/-- The blanks beyond ASCII. -/
def wideBlanks : List Nat := [
  0x0085, 0x00a0, 0x1680, 0x2000, 0x2001, 0x2002, 0x2003, 0x2004, 0x2005, 0x2006,
  0x2007, 0x2008, 0x2009, 0x200a, 0x2028, 0x2029, 0x202f, 0x205f, 0x3000
]

/-- Whether a character is a blank: a space, one of the controls from tab to
carriage return, or a blank beyond ASCII. -/
def isBlank (c : Char) : Bool :=
  c.toNat == 0x20 || (9 ≤ c.toNat && c.toNat ≤ 13) || wideBlanks.contains c.toNat

/-- What core takes for a digit has the value that core gives it. -/
theorem digitValue?_of_isDigit {c : Char} (h : c.isDigit = true) :
    digitValue? c = some (c.toNat - '0'.toNat) := by
  have h₁ : 48 ≤ c.toNat := by
    simp only [Char.isDigit, ge_iff_le, Bool.and_eq_true, decide_eq_true_eq] at h
    exact h.1
  have h₂ : c.toNat < 58 := by
    simp only [Char.isDigit, ge_iff_le, Bool.and_eq_true, decide_eq_true_eq] at h
    exact Nat.lt_succ_of_le h.2
  have hfind : digitZeros.find? (fun first => decide (first ≤ c.toNat ∧ c.toNat < first + 10)) =
      some 48 := by
    rw [digitZeros, List.find?_cons_of_pos]
    simp only [decide_eq_true_eq]
    omega
  rw [digitValue?, hfind]
  rfl

end Brainfuck.Text
