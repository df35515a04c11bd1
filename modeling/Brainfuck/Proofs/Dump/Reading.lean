import Brainfuck.Proofs.Dump
import Brainfuck.Proofs.Text.Lines
/-!
# Reading a dump back

A dump in numbers is cut at its line feeds and blanks, and every field is read
as a number of the base (`readNumber?`). That this gives the cells again goes
up by the parts of a dump: a field reads as its cell (`readNumber?_field`), a
row is cut into its fields (`split_line`), the rows are lines of the right
length and nothing of the cells is lost between them (`laysOut_text`).

What a dump leaves out at the end of the tape are zeros, as many of them as
there are (`isTrimmed_trimZeros`). So a dump and the length of a tape give the
tape. `dump_reads_back` is all of this, and what is refused.
-/

namespace Brainfuck

namespace Dump

/-! ## Numbers -/

/-- The value of a digit. -/
def digit? (c : Char) : Option Nat :=
  if '0' ≤ c ∧ c ≤ '9' then some (c.toNat - '0'.toNat)
  else if 'a' ≤ c ∧ c ≤ 'f' then some (c.toNat - 'a'.toNat + 10)
  else none

/-- Reads one digit more of a number of some base. -/
def readDigit? (base value : Nat) (c : Char) : Option Nat :=
  match digit? c with
  | some d => if d < base then some (value * base + d) else none
  | none => none

/-- Reads a number of some base. It has one digit at least. -/
def readNumber? (base : Nat) : List Char → Option Nat
  | [] => none
  | c :: s => (c :: s).foldlM (readDigit? base) 0

theorem readNumber?_of_ne_nil {base : Nat} {s : List Char} (h : s ≠ []) :
    readNumber? base s = s.foldlM (readDigit? base) 0 := by
  cases s with
  | nil => exact absurd rfl h
  | cons c s => rfl

variable {b : Nat}

theorem readDigit?_digitChar (hb : b ≤ 16) (value : Nat) {d : Nat} (hd : d < b) :
    readDigit? b value d.digitChar = some (value * b + d) := by
  have hdigit : ∀ d < 16, digit? d.digitChar = some d := by decide
  rw [readDigit?, hdigit d (Nat.lt_of_lt_of_le hd hb)]
  exact if_pos hd

/-- The digits of a number read as the number. -/
theorem foldlM_toDigits (hb : 1 < b) (hb' : b ≤ 16) (n : Nat) :
    (Nat.toDigits b n).foldlM (readDigit? b) 0 = some n := by
  induction n using Nat.strongRecOn with
  | ind n ih =>
    by_cases hn : n < b
    · rw [Nat.toDigits_of_lt_base hn, List.foldlM_cons, readDigit?_digitChar hb' 0 hn]
      simp
    · have hlt : n / b < n := Nat.div_lt_self (by omega) hb
      have hmod : n % b < b := Nat.mod_lt n (by omega)
      have hvalue : n / b * b + n % b = n := Nat.div_add_mod' n b
      rw [Nat.toDigits_of_base_le hb (Nat.not_lt.1 hn), List.foldlM_append, ih (n / b) hlt]
      simp only [Option.bind_eq_bind, Option.bind_some, List.foldlM_cons, List.foldlM_nil,
        readDigit?_digitChar hb' (n / b) hmod, hvalue]
      rfl

/-- Zeros in front of a number do not count. -/
theorem foldlM_zeros (hb : 0 < b) (hb' : b ≤ 16) (count : Nat) :
    (List.replicate count '0').foldlM (readDigit? b) 0 = some 0 := by
  have hzero : readDigit? b 0 '0' = some 0 := by
    have hread := readDigit?_digitChar hb' 0 hb
    rwa [Nat.zero_mul] at hread
  induction count with
  | zero => rfl
  | succ count ih =>
    rw [List.replicate_succ, List.foldlM_cons, hzero]
    exact ih

/-- **A field reads as its cell.** -/
theorem readNumber?_field (f : NumberFormat) (v : UInt8) :
    readNumber? f.base (f.field v) = some v.toNat := by
  have hne : f.field v ≠ [] := List.append_ne_nil_of_right_ne_nil _ Nat.toDigits_ne_nil
  have hpos : 0 < f.base := Nat.lt_trans Nat.zero_lt_one f.one_lt_base
  rw [readNumber?_of_ne_nil hne, NumberFormat.field, List.foldlM_append,
    foldlM_zeros hpos f.base_le]
  exact foldlM_toDigits f.one_lt_base f.base_le v.toNat

/-! ## Lines -/

theorem not_mem_field {f : NumberFormat} {v : UInt8} {c : Char} (hc : digit? c = none) :
    c ∉ f.field v := by
  have hdigit : ∀ d < 16, digit? d.digitChar ≠ none := by decide
  intro hmem
  obtain ⟨d, hd, rfl⟩ := NumberFormat.exists_of_mem_field hmem
  exact hdigit d hd hc

/-- **A row is cut into its fields.** -/
theorem split_line (f : NumberFormat) {cells : List UInt8} (h : cells ≠ []) :
    Text.split ' ' (line f cells) = cells.map f.field := by
  rw [Text.split_eq_splitOn]
  refine List.splitOn_intercalate ' ' (fun piece hpiece => ?_) (mt List.map_eq_nil_iff.1 h)
  obtain ⟨v, -, rfl⟩ := List.mem_map.1 hpiece
  exact not_mem_field (by decide)

theorem newline_not_mem_line (f : NumberFormat) (cells : List UInt8) : '\n' ∉ line f cells := by
  intro hmem
  rcases mem_line hmem with hc | ⟨v, hv⟩
  · exact absurd hc (by decide)
  · exact not_mem_field (by decide) hv

/-- Rows of text are the lines of the text, and nothing is behind the last of
them. -/
theorem lines_rows (f : NumberFormat) (rows : List (List UInt8)) :
    Text.lines (rows.flatMap (row f)) = rows.map (line f) ++ [[]] := by
  induction rows with
  | nil => rfl
  | cons cells rows ih =>
    rw [Text.lines, Text.split_eq_splitOn] at ih ⊢
    have hrow : (cells :: rows).flatMap (row f) = line f cells ++ '\n' :: rows.flatMap (row f) := by
      rw [List.flatMap_cons, row, List.append_assoc]
      rfl
    rw [hrow, List.splitOn_append_cons_self_of_not_mem (newline_not_mem_line f cells), ih]
    rfl

/-! ## Rows -/

section

variable {columns : Nat} (columns_pos : 0 < columns)

theorem rows_eq_nil_iff {cells : List UInt8} :
    rows columns columns_pos cells = [] ↔ cells = [] := by
  cases cells with
  | nil =>
    rw [rows]
    exact iff_of_true rfl rfl
  | cons v rest =>
    rw [rows]
    exact iff_of_false (List.cons_ne_nil _ _) (List.cons_ne_nil _ _)

/-- The rows hold the cells, in order. -/
theorem flatten_rows (cells : List UInt8) : (rows columns columns_pos cells).flatten = cells := by
  induction cells using rows.induct columns columns_pos with
  | case1 =>
    rw [rows]
    rfl
  | case2 v rest ih => rw [rows, List.flatten_cons, ih, List.take_append_drop]

/-- No row is empty, and none is too long. -/
theorem length_of_mem_rows {cells r : List UInt8} (h : r ∈ rows columns columns_pos cells) :
    1 ≤ r.length ∧ r.length ≤ columns := by
  induction cells using rows.induct columns columns_pos with
  | case1 =>
    rw [rows] at h
    cases h
  | case2 v rest ih =>
    rw [rows] at h
    rcases List.mem_cons.1 h with rfl | h
    · rw [List.length_take, List.length_cons]
      omega
    · exact ih h

/-- Every row but the last is full: behind a shorter one nothing is left. -/
theorem length_of_mem_dropLast_rows {cells r : List UInt8}
    (h : r ∈ (rows columns columns_pos cells).dropLast) : r.length = columns := by
  induction cells using rows.induct columns columns_pos with
  | case1 =>
    rw [rows] at h
    cases h
  | case2 v rest ih =>
    rw [rows] at h
    by_cases hbehind : (v :: rest).drop columns = []
    · rw [(rows_eq_nil_iff columns_pos).2 hbehind] at h
      cases h
    · have hne := mt (rows_eq_nil_iff columns_pos).1 hbehind
      have hlt : columns < (v :: rest).length :=
        Nat.lt_of_not_le (mt List.drop_of_length_le hbehind)
      rw [List.dropLast_cons_of_ne_nil hne] at h
      rcases List.mem_cons.1 h with rfl | h
      · rw [List.length_take]
        omega
      · exact ih h

end

/-! ## Text -/

/-- Every row has its line feed, so there is no text only where there is no
row. -/
theorem text_eq_nil_iff {f : NumberFormat} {cells : List UInt8} :
    text f cells = [] ↔ cells = [] := by
  rw [← rows_eq_nil_iff f.columns_pos, text, List.flatMap_eq_nil_iff]
  constructor
  · intro h
    refine List.eq_nil_iff_forall_not_mem.2 fun r hr => ?_
    have hrow : row f r ≠ [] := List.append_ne_nil_of_right_ne_nil _ (List.cons_ne_nil _ _)
    exact hrow (h r hr)
  · intro h r hr
    rw [h] at hr
    cases hr

/-- A text lays out cells in lines. -/
structure LaysOut (f : NumberFormat) (s : List Char) (lines : List (List Char))
    (cells : List UInt8) : Prop where
  /-- These are the lines, and every one of them ends with a line feed. -/
  ended : Text.lines s = lines ++ [[]]
  /-- Their fields are numbers, and the numbers are the cells. -/
  numbers : (lines.flatMap (Text.split ' ')).mapM (readNumber? f.base) =
    some (cells.map UInt8.toNat)
  full : ∀ l ∈ lines.dropLast, (Text.split ' ' l).length = f.columns
  last : ∀ l, lines.getLast? = some l →
    1 ≤ (Text.split ' ' l).length ∧ (Text.split ' ' l).length ≤ f.columns
  empty : s = [] ↔ cells = []

/-- **The text of cells lays them out.** -/
theorem laysOut_text (f : NumberFormat) (cells : List UInt8) :
    ∃ lines, LaysOut f (text f cells) lines cells := by
  have hsplit : ∀ r ∈ rows f.columns f.columns_pos cells,
      Text.split ' ' (line f r) = r.map f.field := by
    intro r hr
    have hlength := (length_of_mem_rows f.columns_pos hr).1
    exact split_line f (List.ne_nil_of_length_pos hlength)
  refine ⟨(rows f.columns f.columns_pos cells).map (line f), lines_rows f _, ?_, ?_, ?_, ?_⟩
  · have hfields : ((rows f.columns f.columns_pos cells).map (line f)).flatMap (Text.split ' ') =
        cells.map f.field := by
      rw [List.flatMap_map, List.flatMap_congr hsplit, List.flatMap_def, ← List.map_flatten,
        flatten_rows]
    have hread : readNumber? f.base ∘ f.field = fun v => pure v.toNat :=
      funext (readNumber?_field f)
    rw [hfields, List.mapM_map, hread]
    exact List.mapM_pure
  · intro l hl
    rw [← List.map_dropLast] at hl
    obtain ⟨r, hr, rfl⟩ := List.mem_map.1 hl
    rw [hsplit r (List.dropLast_subset _ hr), List.length_map]
    exact length_of_mem_dropLast_rows f.columns_pos hr
  · intro l hl
    rw [List.getLast?_map] at hl
    obtain ⟨r, hr, rfl⟩ := Option.map_eq_some_iff.1 hl
    have hmem := List.mem_of_getLast? hr
    rw [hsplit r hmem, List.length_map]
    exact length_of_mem_rows f.columns_pos hmem
  · exact text_eq_nil_iff

/-- What is laid out in a text is in the text. -/
theorem LaysOut.unique {f : NumberFormat} {s : List Char} {lines lines' : List (List Char)}
    {cells cells' : List UInt8} (h : LaysOut f s lines cells) (h' : LaysOut f s lines' cells') :
    cells = cells' := by
  obtain rfl : lines = lines' := List.append_cancel_right (h.ended.symm.trans h'.ended)
  have hnumbers := Option.some.inj (h.numbers.symm.trans h'.numbers)
  exact List.map_injective_iff.2 (fun _ _ => UInt8.toNat_inj.1) hnumbers

/-! ## Zeros at the end -/

/-- The shortest beginning of cells behind which there are zeros only. -/
structure IsTrimmed (cells c : List UInt8) : Prop where
  zeros : ∃ behind, cells = c ++ behind ∧ ∀ v ∈ behind, v = 0
  shortest : ∀ c' behind, cells = c' ++ behind → (∀ v ∈ behind, v = 0) → c.length ≤ c'.length

/-- **The zeros at the end are left out, and nothing else.** -/
theorem isTrimmed_trimZeros (cells : List UInt8) : IsTrimmed cells (trimZeros cells) where
  zeros := by
    refine ⟨cells.rtakeWhile (· == 0), List.rdropWhile_append_rtakeWhile.symm, fun v hv => ?_⟩
    have hzero : (v == 0) = true := List.mem_rtakeWhile_imp (p := (· == 0)) hv
    exact eq_of_beq hzero
  shortest := by
    rintro c' behind rfl hzeros
    have hbehind : ∀ v ∈ behind.reverse, (v == 0) = true := fun v hv =>
      beq_iff_eq.2 (hzeros v (List.mem_reverse.1 hv))
    have htrim : trimZeros (c' ++ behind) = trimZeros c' := by
      rw [trimZeros, List.reverse_append, List.dropWhile_append_of_pos hbehind, trimZeros]
    rw [htrim]
    exact (List.rdropWhile_prefix (· == 0) c').length_le

/-- With their number, the cells are given by those that are left. -/
theorem IsTrimmed.unique {cells cells' c : List UInt8} (h : IsTrimmed cells c)
    (h' : IsTrimmed cells' c) (hlength : cells.length = cells'.length) : cells = cells' := by
  obtain ⟨behind, rfl, hbehind⟩ := h.zeros
  obtain ⟨behind', rfl, hbehind'⟩ := h'.zeros
  rw [List.length_append, List.length_append, Nat.add_left_cancel_iff] at hlength
  rw [List.eq_replicate_of_mem hbehind, List.eq_replicate_of_mem hbehind', hlength]

/-! ## Formats by name -/

/-- The value of a cell as an integer. -/
def value (v : UInt8) : Int := v.toNat

/-- A cell as an integer fits a cell. -/
theorem cells?_map_value (cells : List UInt8) : cells? (cells.map value) = some cells := by
  induction cells with
  | nil => rfl
  | cons v rest ih =>
    have hv : v.toNat < 256 := v.toNat_lt
    have hfits : 0 ≤ (v.toNat : Int) ∧ (v.toNat : Int) < 256 := by omega
    rw [cells?] at ih ⊢
    rw [List.map_cons, List.mapM_cons, ih, value, if_pos hfits, Int.toNat_natCast,
      UInt8.ofNat_toNat]
    rfl

/-- Integers do not all fit the cells exactly if one of them is out of the
range of a byte. -/
theorem cells?_eq_none_iff {values : List Int} :
    cells? values = none ↔ ∃ v ∈ values, v < 0 ∨ 255 < v := by
  induction values with
  | nil => simp [cells?]
  | cons v rest ih =>
    rw [cells?] at ih ⊢
    rw [List.mapM_cons, List.exists_mem_cons_iff, ← ih]
    by_cases hfits : 0 ≤ v ∧ v < 256
    · have hin : ¬ (v < 0 ∨ 255 < v) := by omega
      rw [if_pos hfits, or_iff_right hin]
      cases rest.mapM fun v => if 0 ≤ v ∧ v < 256 then some (UInt8.ofNat v.toNat) else none <;> simp
    · have hout : v < 0 ∨ 255 < v := by omega
      rw [if_neg hfits]
      exact iff_of_true rfl (Or.inl hout)

theorem lookup_eq_none_iff {name : String} :
    formats.lookup name = none ↔ name ∉ ["raw", "decimal", "hex", "binary"] := by
  simp [formats, List.lookup_eq_none_iff]

/-- **What is refused**: an unknown format, and in a known one a value that
is out of the range of a byte. -/
theorem ofValues_refuses (name : String) (trim : Bool) (values : List Int) :
    (ofValues name trim values = .error (.unknownFormat name) ↔
      name ∉ ["raw", "decimal", "hex", "binary"]) ∧
    (ofValues name trim values = .error .valueOutOfRange ↔
      name ∈ ["raw", "decimal", "hex", "binary"] ∧ ∃ v ∈ values, v < 0 ∨ 255 < v) ∧
    ((∃ data, ofValues name trim values = .ok data) ↔
      name ∈ ["raw", "decimal", "hex", "binary"] ∧ ∀ v ∈ values, 0 ≤ v ∧ v ≤ 255) := by
  have hrange : (∀ v ∈ values, 0 ≤ v ∧ v ≤ 255) ↔ cells? values ≠ none := by
    simp only [Ne, cells?_eq_none_iff, not_exists, not_and, not_or, Int.not_lt]
  rw [← lookup_eq_none_iff, ← not_not (a := name ∈ _), ← lookup_eq_none_iff, ← cells?_eq_none_iff,
    hrange, ofValues]
  cases formats.lookup name with
  | none => simp
  | some format =>
    cases cells? values with
    | none => simp
    | some cells => simp

/-- Cells are dumped in every format. -/
theorem ofValues_map_value {entry : String × DumpFormat} (h : entry ∈ formats) (trim : Bool)
    (cells : List UInt8) :
    ofValues entry.1 trim (cells.map value) = .ok (bytes entry.2 trim cells) := by
  have hlookup : ∀ entry ∈ formats, formats.lookup entry.1 = some entry.2 := by decide
  rw [ofValues, hlookup entry h, cells?_map_value]

/-! ## Dumps -/

/-- The cells that a dump shows. -/
def shown (trim : Bool) (cells : List UInt8) : List UInt8 := if trim then trimZeros cells else cells

/-- A dump of a known number of cells gives the cells. -/
theorem bytes_injective {format : DumpFormat} {trim : Bool} {cells cells' : List UInt8}
    (hlength : cells.length = cells'.length)
    (h : bytes format trim cells = bytes format trim cells') : cells = cells' := by
  have hshown : shown trim cells = shown trim cells' := by
    cases format with
    | raw => exact h
    | numbers f =>
      have htext := congrArg characters h
      rw [characters_bytes, characters_bytes, String.ofList_inj] at htext
      obtain ⟨lines, hlines⟩ := laysOut_text f (shown trim cells)
      obtain ⟨lines', hlines'⟩ := laysOut_text f (shown trim cells')
      have hsame : text f (shown trim cells) = text f (shown trim cells') := htext
      rw [hsame] at hlines
      exact hlines.unique hlines'
  cases trim with
  | false => exact hshown
  | true =>
    have htrim : trimZeros cells = trimZeros cells' := hshown
    exact (isTrimmed_trimZeros cells).unique (htrim ▸ isTrimmed_trimZeros cells') hlength

/-- **A dump can be read back.** What is dumped are the cells, or the shortest
beginning of them behind which there are zeros only: as they are, or laid out
in lines of numbers of the base. So two tapes of the same size have the same
dump exactly if they have the same cells. Whatever the integers and the name
of the format, the one reason to refuse them is that the name is not known,
and the other one, in a known format, that some integer is no byte. -/
theorem dump_reads_back (trim : Bool) (cells : List UInt8) :
    ∃ c, (if trim then IsTrimmed cells c else c = cells) ∧
      ofValues "raw" trim (cells.map value) = .ok c ∧
      (∀ name f, (name, .numbers f) ∈ formats → ∃ data lines,
        ofValues name trim (cells.map value) = .ok data ∧
        LaysOut f (characters data).toList lines c) ∧
      (∀ entry ∈ formats, ∀ cells',
        cells.length = cells'.length ∧ ofValues entry.1 trim (cells.map value) =
          ofValues entry.1 trim (cells'.map value) ↔ cells = cells') ∧
      ∀ name values,
        (ofValues name trim values = .error (.unknownFormat name) ↔
          name ∉ ["raw", "decimal", "hex", "binary"]) ∧
        (ofValues name trim values = .error .valueOutOfRange ↔
          name ∈ ["raw", "decimal", "hex", "binary"] ∧ ∃ v ∈ values, v < 0 ∨ 255 < v) ∧
        ((∃ data, ofValues name trim values = .ok data) ↔
          name ∈ ["raw", "decimal", "hex", "binary"] ∧ ∀ v ∈ values, 0 ≤ v ∧ v ≤ 255) := by
  refine ⟨shown trim cells, ?_, ?_, ?_, ?_, fun name values => ofValues_refuses name trim values⟩
  · cases trim with
    | false => exact rfl
    | true => exact isTrimmed_trimZeros cells
  · have hraw : ("raw", DumpFormat.raw) ∈ formats := by decide
    exact ofValues_map_value hraw trim cells
  · intro name f hname
    obtain ⟨lines, hlines⟩ := laysOut_text f (shown trim cells)
    refine ⟨_, lines, ofValues_map_value hname trim cells, ?_⟩
    rw [characters_bytes, String.toList_ofList]
    exact hlines
  · intro entry hentry cells'
    rw [ofValues_map_value hentry, ofValues_map_value hentry]
    constructor
    · rintro ⟨hlength, hdump⟩
      exact bytes_injective hlength (Except.ok.inj hdump)
    · rintro rfl
      exact ⟨rfl, rfl⟩

/-- Ten cells in front of two zeros, one of them zero as well, are laid out in
two rows of decimal numbers. -/
theorem dump_reads_back_twoRows :
    ("decimal", .numbers .decimal) ∈ formats ∧ ∃ data lines,
      ofValues "decimal" true ([1, 0, 3, 4, 5, 6, 7, 8, 9, 255, 0, 0].map value) = .ok data ∧
      LaysOut .decimal (characters data).toList lines [1, 0, 3, 4, 5, 6, 7, 8, 9, 255] := by
  have hdecimal : ("decimal", .numbers .decimal) ∈ formats := by decide
  obtain ⟨c, -, hraw, hnumbers, -⟩ :=
    dump_reads_back true [1, 0, 3, 4, 5, 6, 7, 8, 9, 255, 0, 0]
  obtain rfl : c = [1, 0, 3, 4, 5, 6, 7, 8, 9, 255] := Except.ok.inj (hraw.symm.trans rfl)
  exact ⟨hdecimal, hnumbers "decimal" .decimal hdecimal⟩

example : bytes (.numbers .decimal) true [1, 0, 3, 4, 5, 6, 7, 8, 9, 255, 0, 0] =
    "1 0 3 4 5 6 7 8\n9 255\n".toUTF8.toList := by cbv

end Dump

end Brainfuck
