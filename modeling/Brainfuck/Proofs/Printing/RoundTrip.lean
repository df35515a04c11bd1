import Brainfuck.Proofs.Printing.Erasure
/-!
# Printing and parsing

A program is printed as text, and the parser takes the bytes of a text. For
the eight commands these are one byte each (`toUTF8_text`), so what is read
back is the tree of what was printed: the program in units, without its
empty loops (`parseText_text`). In the other direction the text that is
printed for a source is its commands with the empty brackets erased
(`Program.erased_of_parse`).
-/

namespace Brainfuck

/-! ## The bytes of a text -/

theorem toList_loop_eq (bytes : ByteArray) (i : Nat) (acc : List UInt8) :
    ByteArray.toList.loop bytes i acc = acc.reverse ++ bytes.data.toList.drop i := by
  induction i, acc using ByteArray.toList.loop.induct bytes with
  | case1 i acc h ih =>
    have hi : i < bytes.data.toList.length := h
    have hget : bytes.get! i = bytes.data.toList[i] := by
      simpa [ByteArray.get!] using getElem!_pos bytes.data i h
    rw [ByteArray.toList.loop, if_pos h, ih, List.reverse_cons, List.append_assoc, hget,
      List.drop_eq_getElem_cons hi]
    rfl
  | case2 i acc h =>
    have hi : bytes.data.toList.length ≤ i := Nat.le_of_not_lt h
    rw [ByteArray.toList.loop, if_neg h, List.drop_eq_nil_of_le hi, List.append_nil]

/-- A command is one byte of text. -/
theorem utf8EncodeChar_toChar (s : Symbol) : String.utf8EncodeChar s.toChar = [s.byte] := by
  cases s <;> decide

/-- **The bytes of commands as text** are the bytes of the commands. -/
theorem toUTF8_text (code : List Symbol) :
    (Symbol.text code).toUTF8.toList = code.map Symbol.byte := by
  have hflat : (code.map Symbol.toChar).flatMap String.utf8EncodeChar = code.map Symbol.byte := by
    induction code with
    | nil => rfl
    | cons s code ih =>
      rw [List.map_cons, List.flatMap_cons, ih, utf8EncodeChar_toChar]
      rfl
  have hdata : (Symbol.text code).toUTF8.data.toList = code.map Symbol.byte := by
    rw [← hflat]
    simp [Symbol.text, String.toUTF8, List.utf8Encode]
  rw [ByteArray.toList, toList_loop_eq, hdata]
  rfl

/-! ## Reading back -/

/-- **A code as text is parsed as its tree** without the empty loops. -/
theorem Derives.parseText_eq {code : List Symbol} {tree : Program} (h : Derives code tree) :
    Program.parseText (Symbol.text code) = .ok tree.withoutEmptyLoops := by
  have hc : Derives (commands (Symbol.text code).toUTF8.toList) tree := by
    rwa [toUTF8_text, commands_map_byte]
  exact hc.parse_eq

namespace Program

/-- **What is printed is read back in units**, without the empty loops. -/
theorem parseText_text (p : Program) : parseText p.text = .ok p.units.withoutEmptyLoops := by
  rw [text_eq]
  exact p.derives_symbols.parseText_eq

/-- **The plain programs are read back as they are**, and no others. -/
theorem parseText_text_eq_self_iff (p : Program) : parseText p.text = .ok p ↔ p.IsPlain := by
  constructor
  · intro h
    rw [parseText_text] at h
    rw [← Except.ok.inj h]
    exact p.derives_symbols.isPlain
  · intro h
    have hp := h.derives_symbols.parseText_eq
    rwa [h.withoutEmptyLoops_eq, ← text_eq] at hp

/-- **What is printed for a source** is its commands without empty brackets. -/
theorem erased_of_parse {data : List UInt8} {p : Program} (h : parse data = .ok p)
    (rest : List Symbol) : Erased (commands data) rest ↔ rest = p.symbols := by
  obtain ⟨tree, ht, rfl⟩ := exists_derives_of_parse h
  exact ht.erased_iff

/-- **Parsing and printing are inverse to each other**, up to fusing and
empty loops. A program is read back with each action replaced by its units
and then without its empty loops, which is the program itself exactly if it
has neither. For a source that is accepted, the text that is printed is its
commands with the empty brackets erased until none is left, in whatever
order this is done. -/
theorem parseText_text_and_text_parse :
    (∀ p : Program, parseText p.text = .ok p.units.withoutEmptyLoops) ∧
    (∀ p : Program, parseText p.text = .ok p ↔ p.IsPlain) ∧
    ∀ data p, parse data = .ok p →
      ∃ rest, p.text = Symbol.text rest ∧
        ∀ other, Erased (commands data) other ↔ other = rest :=
  ⟨parseText_text, parseText_text_eq_self_iff, fun _ p h =>
    ⟨p.symbols, p.text_eq, erased_of_parse h⟩⟩

/-- Goes three cells on, counts down by two in a loop beside an empty one. -/
def downBesideEmpty : Program :=
  .act (.move 3) (.loop (.act (.add 254) (.loop .nil .nil)) (.act (.add 0) .nil))

/-- `downBesideEmpty` is read back as `>>>[--]`, and is not plain; `commented`
is printed without the brackets that it begins with. -/
theorem parseText_text_and_text_parse_commented :
    parseText downBesideEmpty.text =
      .ok (.act (.move 1) (.act (.move 1) (.act (.move 1)
        (.loop (.act (.add 255) (.act (.add 255) .nil)) .nil)))) ∧
    (parseText downBesideEmpty.text = .ok downBesideEmpty ↔ downBesideEmpty.IsPlain) ∧
    parse commented = .ok (.act (.add 1) (.loop (.act (.move 1) .nil) (.act .input .nil))) ∧
    ∃ rest, text (.act (.add 1) (.loop (.act (.move 1) .nil) (.act .input .nil))) =
        Symbol.text rest ∧
      ∀ other, Erased (commands commented) other ↔ other = rest := by
  have hparse : parse commented =
      .ok (.act (.add 1) (.loop (.act (.move 1) .nil) (.act .input .nil))) := rfl
  obtain ⟨hback, hself, hprint⟩ := parseText_text_and_text_parse
  exact ⟨hback downBesideEmpty, hself downBesideEmpty, hparse, hprint commented _ hparse⟩

end Program

end Brainfuck
