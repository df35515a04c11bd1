import Brainfuck.Text.Split
import Brainfuck.Text.Utf8
import Mathlib.Data.List.DropRight
/-!
# Lines of bytes and lines of their text

Bytes are cut into lines at the byte 10, and a text at the line feed. That
the two agree, whatever the bytes are, is `lines_decode`: a line feed is
never part of another character, not even of one that is cut short by it, and
nothing but the byte 10 is read as one.

What is behind the second half is that a character of more than one byte is
none of ASCII: `Begun.AboveAscii` holds of all that decoding has begun.
-/

namespace Brainfuck

/-! ## Pieces -/

section

variable {α : Type} [DecidableEq α] {a : α}

theorem bne_of_not_mem {l : List α} (h : a ∉ l) : ∀ b ∈ l, (b != a) = true := by
  intro b hb
  rw [bne_iff_ne]
  rintro rfl
  exact h hb

/-- The elements up to the first `a` do not depend on what is behind it. -/
theorem takeWhile_append_cons_self (l m : List α) :
    (l ++ a :: m).takeWhile (· != a) = l.takeWhile (· != a) := by
  induction l with
  | nil => simp
  | cons b l ih =>
    by_cases hb : b = a
    · simp [hb]
    · simp [hb, ih]

/-- No separator is in a piece. -/
theorem not_mem_of_mem_splitOn {l piece : List α} (h : piece ∈ l.splitOn a) : a ∉ piece := by
  induction l generalizing piece with
  | nil =>
    obtain rfl := List.mem_singleton.1 h
    exact List.not_mem_nil
  | cons b l ih =>
    rw [List.splitOn_cons_eq_if_modifyHead] at h
    by_cases hb : b = a
    · rw [if_pos (beq_iff_eq.2 hb), List.mem_cons] at h
      rcases h with rfl | h
      · exact List.not_mem_nil
      · exact ih h
    · rw [if_neg (by simpa using hb)] at h
      cases hl : l.splitOn a with
      | nil => exact absurd hl (List.splitOn_ne_nil a l)
      | cons first pieces =>
        rw [hl] at h
        rcases List.mem_cons.1 h with rfl | h
        · have hfirst := ih (hl ▸ List.mem_cons_self)
          exact fun hmem => hfirst ((List.mem_cons.1 hmem).resolve_left (Ne.symm hb))
        · exact ih (hl ▸ List.mem_cons_of_mem first h)

/-- The first piece is what comes up to the first separator. -/
theorem getElem?_zero_splitOn (l : List α) : (l.splitOn a)[0]? = some (l.takeWhile (· != a)) := by
  induction l with
  | nil => rfl
  | cons b l ih =>
    rw [List.splitOn_cons_eq_if_modifyHead]
    by_cases hb : b = a
    · simp [hb]
    · rw [if_neg (by simpa using hb), List.getElem?_modifyHead_zero, ih]
      simp [hb]

/-- **The piece that goes on behind some elements**: what is behind the last
separator among them, and what comes up to the next one. -/
theorem getElem?_splitOn_append (before rest : List α) :
    ((before ++ rest).splitOn a)[before.count a]? =
      some (before.rtakeWhile (· != a) ++ rest.takeWhile (· != a)) := by
  induction hn : before.length using Nat.strong_induction_on generalizing before with
  | _ n ih =>
    -- the pieces in front of the last separator are cut off one by one
    by_cases hmem : a ∈ before
    · obtain ⟨piece, behind, rfl, hpiece⟩ := List.eq_append_cons_of_mem hmem
      have hlt : behind.length < n := by
        rw [← hn, List.length_append, List.length_cons]
        omega
      have hcount : (piece ++ a :: behind).count a = behind.count a + 1 := by
        rw [List.count_append, List.count_eq_zero.2 hpiece, List.count_cons_self, Nat.zero_add]
      have hpieces : (piece ++ a :: behind ++ rest).splitOn a =
          piece :: (behind ++ rest).splitOn a := by
        rw [List.append_assoc]
        exact List.splitOn_append_cons_self_of_not_mem hpiece (behind ++ rest)
      have hlast : (piece ++ a :: behind).rtakeWhile (· != a) = behind.rtakeWhile (· != a) := by
        simp only [List.rtakeWhile, List.reverse_append, List.reverse_cons, List.append_assoc,
          List.singleton_append, takeWhile_append_cons_self]
      rw [hcount, hpieces, hlast, List.getElem?_cons_succ]
      exact ih _ hlt behind rfl
    · have hall := bne_of_not_mem hmem
      rw [List.count_eq_zero.2 hmem, getElem?_zero_splitOn, List.takeWhile_append_of_pos hall,
        List.rtakeWhile_eq_self_iff.2 hall]

end

namespace Text

/-- The pieces of a text are those of the library. -/
theorem split_eq_splitOn (separator : Char) (s : List Char) :
    split separator s = s.splitOn separator := by
  induction s with
  | nil => rfl
  | cons c rest ih =>
    rw [split, List.splitOn_cons_eq_if_modifyHead, ih]
    by_cases hc : c = separator
    · simp [hc]
    · rw [if_neg hc, if_neg (by simpa using hc)]
      cases hrest : rest.splitOn separator with
      | nil => exact absurd hrest (List.splitOn_ne_nil separator rest)
      | cons piece pieces => rfl

/-- A first line and a last one around a text. -/
theorem lines_enclosed {first last : List Char} (hfirst : '\n' ∉ first) (hlast : '\n' ∉ last)
    (s : List Char) :
    lines (first ++ '\n' :: s ++ '\n' :: last) = first :: (lines s ++ [last]) := by
  rw [lines, lines, split_eq_splitOn, split_eq_splitOn, List.append_assoc, List.cons_append,
    List.splitOn_append_cons_self_of_not_mem hfirst, List.splitOn_append_cons_self,
    List.splitOn_eq_singleton hlast]

namespace Utf8

/-! ## Characters of more than one byte -/

/-- What was begun is no character of ASCII. Its next byte is not of ASCII,
and with the bits of that byte it is above ASCII, or will be with those of
one more. -/
structure Begun.AboveAscii (s : Begun) : Prop where
  lower : 0x80 ≤ s.lower.toNat
  code : 2 ≤ s.code * 64 + (s.lower.toNat - 0x80)
  last : s.missing ≤ 1 → 0x80 ≤ s.code * 64 + (s.lower.toNat - 0x80)

/-- The first of the bytes that begin a character of some length carries no
bits; the next byte is then `lower` at least. -/
theorem bits_of_le {b c : UInt8} (lower : UInt8) (hb : c.toNat ≤ b.toNat)
    (hl : 0x82 ≤ lower.toNat) :
    0x80 ≤ (if b = c then lower else 0x80).toNat ∧
      2 ≤ (b.toNat - c.toNat) * 64 + ((if b = c then lower else 0x80).toNat - 0x80) := by
  by_cases hbc : b = c
  · rw [if_pos hbc]
    omega
  · have hne : b.toNat ≠ c.toNat := fun heq => hbc (UInt8.toNat_inj.1 heq)
    have hlower : (0x80 : UInt8).toNat = 0x80 := rfl
    rw [if_neg hbc, hlower]
    omega

/-- **What a byte at the start of a character can be**: ASCII, nothing that
belongs to a character, or the beginning of one above ASCII. -/
theorem first_cases (b : UInt8) :
    (b < 0x80 ∧ first b = ([Char.ofNat b.toNat], none)) ∨
    first b = ([replacement], none) ∨
    ∃ s, first b = ([], some s) ∧ s.AboveAscii := by
  have hlt {c : UInt8} : b < c ↔ b.toNat < c.toNat := UInt8.lt_iff_toNat_lt
  unfold first
  by_cases h₁ : b < 0x80
  · exact Or.inl ⟨h₁, if_pos h₁⟩
  by_cases h₂ : b < 0xc2
  · exact Or.inr (Or.inl (by rw [if_neg h₁, if_pos h₂]))
  rw [if_neg h₁, if_neg h₂]
  by_cases h₃ : b < 0xe0
  · have hcode : 2 ≤ b.toNat - 0xc0 := by
      have hge := Nat.not_lt.1 (mt hlt.2 h₂)
      change 0xc2 ≤ b.toNat at hge
      omega
    refine Or.inr (Or.inr ⟨_, if_pos h₃, Nat.le_refl _, ?_, fun _ => ?_⟩)
    · dsimp only
      omega
    · dsimp only
      omega
  rw [if_neg h₃]
  by_cases h₄ : b < 0xf0
  · obtain ⟨hlower, hcode⟩ := bits_of_le 0xa0 (Nat.not_lt.1 (mt hlt.2 h₃)) (by decide)
    exact Or.inr (Or.inr ⟨_, if_pos h₄, hlower, hcode, fun hm =>
      absurd (show 2 ≤ 1 from hm) (by decide)⟩)
  rw [if_neg h₄]
  by_cases h₅ : b < 0xf5
  · obtain ⟨hlower, hcode⟩ := bits_of_le 0x90 (Nat.not_lt.1 (mt hlt.2 h₄)) (by decide)
    exact Or.inr (Or.inr ⟨_, if_pos h₅, hlower, hcode, fun hm =>
      absurd (show 3 ≤ 1 from hm) (by decide)⟩)
  · exact Or.inr (Or.inl (if_neg h₅))

/-- **What a further byte can be**: the start of another character, the last
byte of one above ASCII, or one of its bytes before the last. -/
theorem further_cases {s : Begun} (hs : s.AboveAscii) (b : UInt8) :
    further s b = (replacement :: (first b).1, (first b).2) ∨
    (0x80 ≤ b.toNat ∧ ∃ code, 0x80 ≤ code ∧ further s b = ([Char.ofNat code], none)) ∨
    (0x80 ≤ b.toNat ∧ ∃ s', further s b = ([], some s') ∧ s'.AboveAscii) := by
  unfold further
  by_cases hb : s.lower ≤ b ∧ b ≤ s.upper
  · have hle : s.lower.toNat ≤ b.toNat := UInt8.le_iff_toNat_le.1 hb.1
    have hb₀ : 0x80 ≤ b.toNat := hs.lower.trans hle
    have hcode : s.code * 64 + (s.lower.toNat - 0x80) ≤ s.code * 64 + (b.toNat - 0x80) := by omega
    -- the byte can only add to what the smallest one would make of the code
    rw [if_pos hb]
    by_cases hm : s.missing ≤ 1
    · exact Or.inr (Or.inl ⟨hb₀, _, (hs.last hm).trans hcode, if_pos hm⟩)
    · have htwo := hs.code.trans hcode
      refine Or.inr (Or.inr ⟨hb₀, _, if_neg hm, Nat.le_refl _, ?_, fun _ => ?_⟩)
      · dsimp only
        omega
      · dsimp only
        omega
  · exact Or.inl (if_neg hb)

/-! ## Line feeds -/

/-- Only the code point 10 is the line feed. -/
theorem ofNat_ne_newline {code : Nat} (h : code ≠ 10) : Char.ofNat code ≠ '\n' := by
  intro heq
  have hcode := congrArg Char.toNat heq
  by_cases hvalid : code.isValidChar
  · rw [Char.ofNat, dif_pos hvalid] at hcode
    exact h hcode
  · rw [Char.ofNat, dif_neg hvalid] at hcode
    cases hcode

/-- What decoding does with a byte, at the start of a character or behind it. -/
def turn : Option Begun → UInt8 → List Char × Option Begun
  | none, b => first b
  | some s, b => further s b

theorem decodeFrom_cons (st : Option Begun) (b : UInt8) (rest : List UInt8) :
    decodeFrom st (b :: rest) = (turn st b).1 ++ decodeFrom (turn st b).2 rest := by
  cases st <;> rfl

/-- If a character is begun, it is one above ASCII. -/
def Proper (st : Option Begun) : Prop := ∀ s, st = some s → s.AboveAscii

variable {st : Option Begun}

theorem proper_none : Proper none := fun _ h => nomatch h

theorem Begun.AboveAscii.proper {s : Begun} (h : s.AboveAscii) : Proper (some s) := by
  intro s' hs
  obtain rfl := Option.some.inj hs
  exact h

theorem proper_first (b : UInt8) : Proper (first b).2 := by
  rcases first_cases b with ⟨-, h⟩ | h | ⟨s, h, hs⟩
  · rw [h]
    exact proper_none
  · rw [h]
    exact proper_none
  · rw [h]
    exact hs.proper

/-- **A byte keeps what is begun above ASCII.** -/
theorem Proper.turn (h : Proper st) (b : UInt8) : Proper (turn st b).2 := by
  cases st with
  | none => exact proper_first b
  | some s =>
    rw [Utf8.turn]
    rcases further_cases (h s rfl) b with h' | ⟨-, code, -, h'⟩ | ⟨-, s', h', hs'⟩
    · rw [h']
      exact proper_first b
    · rw [h']
      exact proper_none
    · rw [h']
      exact hs'.proper

/-- The byte 10 is a line feed, whatever it cuts short. -/
theorem Proper.turn_newline (h : Proper st) :
    Utf8.turn st 10 = (decodeFrom st [] ++ ['\n'], none) := by
  cases st with
  | none => rfl
  | some s =>
    rcases further_cases (h s rfl) 10 with h' | ⟨hge, -⟩ | ⟨hge, -⟩
    · exact h'
    · exact absurd hge (by decide)
    · exact absurd hge (by decide)

theorem newline_not_mem_first {b : UInt8} (hb : b ≠ 10) : '\n' ∉ (first b).1 := by
  rcases first_cases b with ⟨-, h⟩ | h | ⟨s, h, -⟩
  · rw [h, List.mem_singleton]
    exact (ofNat_ne_newline fun h => hb (UInt8.toNat_inj.1 h)).symm
  · rw [h]
    decide
  · rw [h]
    exact List.not_mem_nil

/-- No other byte makes a line feed. -/
theorem Proper.newline_not_mem_turn {b : UInt8} (h : Proper st) (hb : b ≠ 10) :
    '\n' ∉ (Utf8.turn st b).1 := by
  cases st with
  | none => exact newline_not_mem_first hb
  | some s =>
    rw [Utf8.turn]
    rcases further_cases (h s rfl) b with h' | ⟨-, code, hcode, h'⟩ | ⟨-, s', h', -⟩
    · rw [h', List.mem_cons, not_or]
      exact ⟨by decide, newline_not_mem_first hb⟩
    · rw [h', List.mem_singleton]
      exact (ofNat_ne_newline (by omega)).symm
    · rw [h']
      exact List.not_mem_nil

/-- Behind the byte 10 decoding starts anew. -/
theorem Proper.decodeFrom_append_newline (h : Proper st) (before rest : List UInt8) :
    decodeFrom st (before ++ 10 :: rest) = decodeFrom st before ++ '\n' :: decode rest := by
  induction before generalizing st with
  | nil =>
    rw [List.nil_append, decodeFrom_cons, h.turn_newline, List.append_assoc]
    rfl
  | cons b before ih =>
    rw [List.cons_append, decodeFrom_cons, decodeFrom_cons, ih (h.turn b), List.append_assoc]

/-- Without the byte 10 there is no line feed. -/
theorem Proper.newline_not_mem_decodeFrom {data : List UInt8} (h : Proper st) (hd : 10 ∉ data) :
    '\n' ∉ decodeFrom st data := by
  induction data generalizing st with
  | nil =>
    cases st with
    | none => exact List.not_mem_nil
    | some s => exact fun h => absurd (List.mem_singleton.1 h) (by decide)
  | cons b data ih =>
    rw [List.mem_cons, not_or] at hd
    rw [decodeFrom_cons, List.mem_append, not_or]
    exact ⟨h.newline_not_mem_turn (Ne.symm hd.1), ih (h.turn b) hd.2⟩

end Utf8

/-- **The lines of a text are the texts of the lines**: it makes no
difference whether bytes are cut into lines before they are decoded or
after. -/
theorem lines_decode (data : List UInt8) :
    lines (Utf8.decode data) = (data.splitOn 10).map Utf8.decode := by
  induction hn : data.length using Nat.strong_induction_on generalizing data with
  | _ n ih =>
    rw [lines, split_eq_splitOn]
    -- the first line is cut off on both sides, and behind it decoding starts anew
    by_cases hnl : 10 ∈ data
    · obtain ⟨line, rest, rfl, hline⟩ := List.eq_append_cons_of_mem hnl
      have hlt : rest.length < n := by
        rw [← hn, List.length_append, List.length_cons]
        omega
      have hrest := ih _ hlt rest rfl
      rw [lines, split_eq_splitOn] at hrest
      have hdecode : Utf8.decode (line ++ 10 :: rest) =
          Utf8.decode line ++ '\n' :: Utf8.decode rest :=
        Utf8.proper_none.decodeFrom_append_newline line rest
      have hno : '\n' ∉ Utf8.decode line := Utf8.proper_none.newline_not_mem_decodeFrom hline
      rw [hdecode, List.splitOn_append_cons_self_of_not_mem hno,
        List.splitOn_append_cons_self_of_not_mem hline, List.map_cons, hrest]
    · have hno : '\n' ∉ Utf8.decode data := Utf8.proper_none.newline_not_mem_decodeFrom hnl
      rw [List.splitOn_eq_singleton hno, List.splitOn_eq_singleton hnl]
      rfl

end Text

end Brainfuck
