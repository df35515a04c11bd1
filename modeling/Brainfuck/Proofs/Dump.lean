import Brainfuck.Dump
import Mathlib.Data.List.Basic
/-!
# The characters of a dump

The numbers of a dump, the blanks between them and the line feeds behind them
are ASCII, so the bytes of a dump as text are its characters
(`Dump.characters_bytes`).
-/

namespace Brainfuck

/-- Every character of a number is a digit of its base. -/
theorem exists_of_mem_toDigits {b n : Nat} {c : Char} (hb : 1 < b) (h : c ∈ Nat.toDigits b n) :
    ∃ d < b, c = d.digitChar := by
  induction n using Nat.strongRecOn with
  | ind n ih =>
    by_cases hn : n < b
    · rw [Nat.toDigits_of_lt_base hn, List.mem_singleton] at h
      exact ⟨n, hn, h⟩
    · rw [Nat.toDigits_of_base_le hb (Nat.not_lt.1 hn)] at h
      rcases List.mem_append.1 h with h | h
      · exact ih (n / b) (Nat.div_lt_self (by omega) hb) h
      · exact ⟨n % b, Nat.mod_lt n (by omega), List.mem_singleton.1 h⟩

namespace NumberFormat

variable {f : NumberFormat} {v : UInt8} {c : Char}

theorem one_lt_base (f : NumberFormat) : 1 < f.base := by cases f <;> decide

theorem base_le (f : NumberFormat) : f.base ≤ 16 := by cases f <;> decide

/-- The characters of a field are digits, those that fill it up included. -/
theorem exists_of_mem_field (h : c ∈ f.field v) : ∃ d < 16, c = d.digitChar := by
  rcases List.mem_append.1 h with h | h
  · exact ⟨0, by decide, List.eq_of_mem_replicate h⟩
  · obtain ⟨d, hd, hc⟩ := exists_of_mem_toDigits f.one_lt_base h
    exact ⟨d, Nat.lt_of_lt_of_le hd f.base_le, hc⟩

theorem toNat_lt_of_mem_field (h : c ∈ f.field v) : c.toNat < 128 := by
  have hdigit : ∀ d < 16, d.digitChar.toNat < 128 := by decide
  obtain ⟨d, hd, rfl⟩ := exists_of_mem_field h
  exact hdigit d hd

end NumberFormat

namespace Dump

/-- A row without its line feed. -/
def line (f : NumberFormat) (cells : List UInt8) : List Char :=
  [' '].intercalate (cells.map f.field)

/-- A row is made of fields and blanks. -/
theorem mem_line {f : NumberFormat} {cells : List UInt8} {c : Char} (h : c ∈ line f cells) :
    c = ' ' ∨ ∃ v, c ∈ f.field v := by
  rw [line] at h
  induction cells with
  | nil => exact absurd h List.not_mem_nil
  | cons v rest ih =>
    cases rest with
    | nil =>
      rw [List.map_cons, List.map_nil, List.intercalate_singleton] at h
      exact Or.inr ⟨v, h⟩
    | cons w rest =>
      rw [List.map_cons, List.map_cons, List.intercalate_cons_cons, ← List.map_cons] at h
      rcases List.mem_append.1 h with h | h
      · rcases List.mem_append.1 h with h | h
        · exact Or.inr ⟨v, h⟩
        · exact Or.inl (List.mem_singleton.1 h)
      · exact ih h

theorem toNat_lt_of_mem_row {f : NumberFormat} {cells : List UInt8} {c : Char}
    (h : c ∈ row f cells) : c.toNat < 128 := by
  rcases List.mem_append.1 h with hc | hc
  · rcases mem_line hc with rfl | ⟨v, hv⟩
    · decide
    · exact NumberFormat.toNat_lt_of_mem_field hv
  · obtain rfl := List.mem_singleton.1 hc
    decide

theorem toNat_lt_of_mem_text {f : NumberFormat} {cells : List UInt8} {c : Char}
    (h : c ∈ text f cells) : c.toNat < 128 := by
  obtain ⟨_, -, hc⟩ := List.mem_flatMap.1 h
  exact toNat_lt_of_mem_row hc

/-- Bytes as the characters of their code. -/
def characters (data : List UInt8) : String := String.ofList (data.map Char.ofUInt8)

/-- **A dump in numbers is text**: its bytes are the characters of the rows. -/
theorem characters_bytes (f : NumberFormat) (trim : Bool) (cells : List UInt8) :
    characters (bytes (.numbers f) trim cells) =
      String.ofList (text f (if trim then trimZeros cells else cells)) := by
  have hchar : ∀ shown, ∀ c ∈ text f shown,
      (Char.ofUInt8 ∘ fun c => UInt8.ofNat c.toNat) c = id c := by
    intro shown c hc
    have hlt : c.toNat < 256 := Nat.lt_trans (toNat_lt_of_mem_text hc) (by decide)
    apply Char.ext
    apply UInt32.toNat_inj.1
    change (UInt8.ofNat c.toNat).toNat = c.toNat
    rw [UInt8.toNat_ofNat', Nat.mod_eq_of_lt hlt]
  rw [characters, bytes, List.map_map, List.map_congr_left (hchar _), List.map_id]

end Dump

end Brainfuck
