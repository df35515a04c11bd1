import Brainfuck.Text.Integer
/-!
# Integers are read as they are written

The decimal text of an integer is read back, if it has no more digits than
are read at all: `Text.readInteger_toString`.
-/

namespace Brainfuck.Text

variable {s : List Char} {c : Char}

/-- A digit is no blank: the blanks are below the digits or beyond ASCII. -/
theorem isBlank_of_isDigit (h : c.isDigit = true) : isBlank c = false := by
  have hc : 48 ≤ c.toNat ∧ c.toNat ≤ 57 := by
    simp only [Char.isDigit, ge_iff_le, Bool.and_eq_true, decide_eq_true_eq] at h
    exact h
  have hwide : wideBlanks.contains c.toNat = false := by
    have hlow : ∀ n ∈ wideBlanks, 57 < n := by decide
    rw [List.contains_eq_mem, decide_eq_false_iff_not]
    exact fun hm => Nat.not_lt.2 hc.2 (hlow _ hm)
  simp only [isBlank, hwide, Bool.or_false, Bool.or_eq_false_iff, beq_eq_false_iff_ne,
    Bool.and_eq_false_iff, decide_eq_false_iff_not]
  omega

/-- Nothing is cut off a text without blanks. -/
theorem trimBlanks_of_not_isBlank (h : ∀ c ∈ s, isBlank c = false) : trimBlanks s = s := by
  have hdrop : ∀ l : List Char, (∀ c ∈ l, isBlank c = false) → l.dropWhile isBlank = l := by
    intro l hl
    cases l with
    | nil => rfl
    | cons c l => exact List.dropWhile_cons_of_neg (by simp [hl c])
  rw [trimBlanks, hdrop s h, hdrop s.reverse (fun c hc => h c (List.mem_reverse.1 hc)),
    List.reverse_reverse]

/-! ## Digits -/

theorem readDigits_singleton {v : Nat} (hc : digitValue? c = some v) (value count : Nat) :
    readDigits value count [c] = some (10 * value + v, count + 1) := by
  unfold readDigits
  rw [hc]

theorem readDigits_cons_cons {v : Nat} (hc : digitValue? c = some v) {d : Char} (hd : d ≠ '_')
    (rest : List Char) (value count : Nat) :
    readDigits value count (c :: d :: rest) =
      readDigits (10 * value + v) (count + 1) (d :: rest) := by
  rw [readDigits.eq_def]
  simp only [hc]
  split <;> simp_all

/-- Digits alone are read to their end. -/
theorem readDigits_of_isDigit (hne : s ≠ []) (h : ∀ c ∈ s, c.isDigit = true) (value count : Nat) :
    readDigits value count s = some (Nat.ofDigitChars 10 s value, count + s.length) := by
  induction s generalizing value count with
  | nil => exact absurd rfl hne
  | cons c rest ih =>
    have hc : digitValue? c = some (c.toNat - '0'.toNat) :=
      digitValue?_of_isDigit (h c List.mem_cons_self)
    cases rest with
    | nil => exact readDigits_singleton hc value count
    | cons d rest =>
      have hrest : ∀ e ∈ d :: rest, e.isDigit = true := fun e he => h e (List.mem_cons_of_mem c he)
      have hd : d ≠ '_' := by
        rintro rfl
        exact absurd (hrest '_' List.mem_cons_self) (by decide)
      rw [readDigits_cons_cons hc hd, ih (List.cons_ne_nil d rest) hrest,
        Nat.ofDigitChars_cons (c := c), List.length_cons (a := c), Nat.add_right_comm, Nat.add_assoc]

/-! ## Integers -/

theorem isDigit_of_mem_decimal {n : Nat} (h : c ∈ Nat.toDigits 10 n) : c.isDigit = true :=
  Nat.isDigit_of_mem_toDigits (by decide) (by decide) h

theorem toList_toString_ofNat (n : Nat) : (toString (Int.ofNat n)).toList = Nat.toDigits 10 n :=
  Nat.toList_repr

theorem toList_toString_negSucc (n : Nat) :
    (toString (Int.negSucc n)).toList = '-' :: Nat.toDigits 10 (n + 1) := by
  change ("-" ++ (n + 1).repr).toList = _
  rw [String.toList_append, Nat.toList_repr]
  rfl

theorem readNatural_toDigits {n : Nat} (h : (Nat.toDigits 10 n).length ≤ digitLimit) :
    readNatural (Nat.toDigits 10 n) = some n := by
  rw [readNatural, readDigits_of_isDigit Nat.toDigits_ne_nil (fun _ => isDigit_of_mem_decimal),
    Nat.ofDigitChars_ten_toDigits]
  simp only [Nat.zero_add]
  rw [if_pos h]

/-- A text of digits has no sign and no blanks around it. -/
theorem readInteger_of_isDigit (h : ∀ c ∈ s, c.isDigit = true) :
    readInteger s = (readNatural s).map Int.ofNat := by
  have hsign : ∀ c : Char, c.isDigit = false → ∀ rest, s ≠ c :: rest := by
    rintro c hc rest rfl
    exact Bool.false_ne_true (hc.symm.trans (h c List.mem_cons_self))
  rw [readInteger, trimBlanks_of_not_isBlank fun c hc => isBlank_of_isDigit (h c hc)]
  split
  · next rest => exact absurd rfl (hsign '-' (by decide) rest)
  · next rest => exact absurd rfl (hsign '+' (by decide) rest)
  · cases readNatural s <;> rfl

/-- **An integer is read as it is written**, unless it has too many digits. -/
theorem readInteger_toString {n : Int}
    (h : (Nat.toDigits 10 n.natAbs).length ≤ digitLimit) :
    readInteger (toString n).toList = some n := by
  cases n with
  | ofNat m =>
    have hread : readNatural (Nat.toDigits 10 m) = some m := readNatural_toDigits h
    rw [toList_toString_ofNat, readInteger_of_isDigit fun _ => isDigit_of_mem_decimal, hread]
    rfl
  | negSucc m =>
    have hread : readNatural (Nat.toDigits 10 (m + 1)) = some (m + 1) := readNatural_toDigits h
    have hblank : ∀ c ∈ '-' :: Nat.toDigits 10 (m + 1), isBlank c = false := by
      intro c hc
      rcases List.mem_cons.1 hc with rfl | hc
      · decide
      · exact isBlank_of_isDigit (isDigit_of_mem_decimal hc)
    rw [toList_toString_negSucc, readInteger, trimBlanks_of_not_isBlank hblank]
    simp only [hread]
    rfl

end Brainfuck.Text
