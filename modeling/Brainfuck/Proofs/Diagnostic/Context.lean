import Brainfuck.Diagnostic
import Brainfuck.Proofs.Parse.Unmatched
import Brainfuck.Proofs.Text.Integer
import Brainfuck.Proofs.Text.Lines
import Mathlib.Data.List.Intervals
import Mathlib.Data.List.Nodup
/-!
# The lines that a report shows

A report shows the lines of the source around a line. For any integer
whatever these are lines that the source has (`context_shows`), at most one
of them marked.

For a bracket without its partner the marked line is the one that the bracket
is on. Its number is counted by the parser, among bytes, and the lines are
counted by the report, among the characters of the decoded text; that they
agree for all bytes is `report_marks_bracket`.
-/

namespace Brainfuck

namespace Diagnostic

/-! ## The rows -/

/-- The rows show the lines of a source from two before `shown` to two after
it, as far as there are any, in their order, each with its number and its
content, and `shown` with the mark. -/
structure Shows (source : List Char) (shown : Nat) (rows : List ContextRow) : Prop where
  numbers : rows.map ContextRow.number =
    List.Ico (max 1 (shown - 2)) (min (Text.lines source).length (shown + 2) + 1)
  content : ∀ r ∈ rows, (Text.lines source)[r.number - 1]? = some r.content
  marked : ∀ r ∈ rows, r.marked = true ↔ r.number = shown

/-- The numbers of lines, those left out that are too far away. -/
theorem filter_ico_one (n shown : Nat) :
    ((List.Ico 1 (n + 1)).filter fun i => shown ≤ i + 2 ∧ i ≤ shown + 2) =
      List.Ico (max 1 (shown - 2)) (min n (shown + 2) + 1) := by
  have hnear : (fun i => decide (shown ≤ i + 2 ∧ i ≤ shown + 2)) =
      fun i => decide (shown - 2 ≤ i) && decide (i < shown + 3) := by
    funext i
    rw [← Bool.decide_and, decide_eq_decide]
    omega
  rw [hnear, ← List.filter_filter, List.Ico.filter_lt, List.Ico.filter_le]
  congr 1
  omega

theorem filterMap_ite {α β : Type} (p : α → Prop) [DecidablePred p] (f : α → β) (l : List α) :
    (l.filterMap fun a => if p a then some (f a) else none) = (l.filter p).map f := by
  induction l with
  | nil => rfl
  | cons a l ih =>
    by_cases ha : p a
    · simp [ha, ih]
    · simp [ha, ih]

/-- The rows are made of the lines that are near enough, with their
numbers. -/
theorem context_eq (source : List Char) (line : Int) :
    context source line =
      (((Text.lines source).zipIdx 1).filter fun l =>
        shownLine line ≤ l.2 + 2 ∧ l.2 ≤ shownLine line + 2).map fun l =>
          ⟨l.2 == shownLine line, l.2, l.1⟩ :=
  filterMap_ite (fun l : List Char × Nat => shownLine line ≤ l.2 + 2 ∧ l.2 ≤ shownLine line + 2)
    (fun l => ContextRow.mk (l.2 == shownLine line) l.2 l.1) _

/-- **The rows show the lines around a line**, whatever integer it is. -/
theorem context_shows (source : List Char) (line : Int) :
    Shows source (shownLine line) (context source line) where
  numbers := by
    have hall : ((Text.lines source).zipIdx 1).map Prod.snd =
        List.Ico 1 ((Text.lines source).length + 1) := List.zipIdx_map_snd 1 _
    rw [context_eq, List.map_map, ← filter_ico_one, ← hall, List.filter_map]
    rfl
  content := by
    intro r hr
    rw [context_eq] at hr
    obtain ⟨⟨content, number⟩, hl, rfl⟩ := List.mem_map.1 hr
    exact (List.mk_mem_zipIdx_iff_le_and_getElem?_sub.1 (List.mem_of_mem_filter hl)).2
  marked := by
    intro r hr
    rw [context_eq] at hr
    obtain ⟨⟨content, number⟩, -, rfl⟩ := List.mem_map.1 hr
    exact beq_iff_eq

variable {source : List Char} {shown : Nat} {rows : List ContextRow}

namespace Shows

/-- The rows with the mark are those with the number. -/
theorem filter_marked (h : Shows source shown rows) :
    rows.filter ContextRow.marked = rows.filter fun r => r.number == shown :=
  List.filter_congr fun r hr => by
    rw [Bool.eq_iff_iff, h.marked r hr, beq_iff_eq]

/-- There are as many rows with the mark as the number is among theirs. -/
theorem length_filter_marked (h : Shows source shown rows) :
    (rows.filter ContextRow.marked).length = (rows.map ContextRow.number).count shown := by
  rw [h.filter_marked, ← List.countP_eq_length_filter, List.count, List.countP_map]
  rfl

/-- **At most one row is marked.** -/
theorem length_filter_marked_le (h : Shows source shown rows) :
    (rows.filter ContextRow.marked).length ≤ 1 := by
  rw [h.length_filter_marked, h.numbers]
  exact List.nodup_iff_count_le_one.1 (List.Ico.nodup _ _) shown

/-- **One row is marked where the line exists**, and it has its content. -/
theorem filter_marked_eq {content : List Char} (h : Shows source shown rows)
    (hshown : 1 ≤ shown) (hline : (Text.lines source)[shown - 1]? = some content) :
    rows.filter ContextRow.marked = [⟨true, shown, content⟩] := by
  have hlt : shown - 1 < (Text.lines source).length := by
    by_contra hge
    rw [List.getElem?_eq_none (by omega)] at hline
    cases hline
  have hmem : shown ∈ rows.map ContextRow.number := by
    rw [h.numbers, List.Ico.mem]
    omega
  have hone : (rows.filter ContextRow.marked).length = 1 := by
    have hpos := List.count_pos_iff.2 hmem
    have hle := h.length_filter_marked_le
    rw [← h.length_filter_marked] at hpos
    omega
  obtain ⟨r, hr⟩ := List.length_eq_one_iff.1 hone
  obtain ⟨hin, hmarked⟩ := List.mem_filter.1 (hr ▸ List.mem_singleton_self r)
  have hnumber := (h.marked r hin).1 hmarked
  have hcontent := h.content r hin
  rw [hnumber, hline] at hcontent
  obtain ⟨marked, number, content'⟩ := r
  subst hnumber
  obtain rfl := Option.some.inj hcontent
  obtain rfl : marked = true := hmarked
  exact hr

end Shows

/-! ## The report -/

/-- The hint at the end of a report. -/
def hintEnd (d : Diagnostic) : String :=
  match d.hint? with
  | some h => "\nHint: " ++ h
  | none => ""

/-- **A report on a place in the source** is its head, the rows, and the
hint. -/
theorem render_syntactic (source message : String) (unmatched : Option Bracket)
    (line column : Int) :
    (render (some source) ⟨.syntactic unmatched line column, message⟩).toList =
      ("ParseError: " ++ message ++ " (line " ++ toString line ++ ", column " ++
        toString column ++ ")").toList ++
        '\n' :: ['\n'].intercalate ((context source.toList line).map ContextRow.text) ++
          (hintEnd ⟨.syntactic unmatched line column, message⟩).toList := by
  have hreport : render (some source) ⟨.syntactic unmatched line column, message⟩ =
      "ParseError" ++ ": " ++ message ++
        (" (line " ++ toString line ++ ", column " ++ toString column ++ ")" ++
          ("\n" ++ String.ofList (contextText source.toList line))) ++
        hintEnd ⟨.syntactic unmatched line column, message⟩ := rfl
  rw [hreport]
  simp [contextText]

/-- There is no line feed in a number, -/
theorem newline_not_mem_toDigits (n : Nat) : '\n' ∉ Nat.toDigits 10 n :=
  fun h => absurd (Text.isDigit_of_mem_decimal h) (by decide)

/-- nor in a row, if there is none in its content, -/
theorem ContextRow.newline_not_mem_text {r : ContextRow} (h : '\n' ∉ r.content) :
    '\n' ∉ r.text := by
  have hnumber := newline_not_mem_toDigits r.number
  have hmark : '\n' ≠ if r.marked then '>' else ' ' := by
    split <;> decide
  simp [text, h, hnumber, hmark, List.mem_replicate]

/-- nor in the head of a report, if there is none in its message. -/
theorem newline_not_mem_head {message : String} (line column : Nat)
    (h : '\n' ∉ message.toList) :
    '\n' ∉ ("ParseError: " ++ message ++ " (line " ++ toString (line : Int) ++ ", column " ++
      toString (column : Int) ++ ")").toList := by
  have hnumber (n : Nat) : '\n' ∉ (n : Int).repr.toList := by
    have hdigits : (n : Int).repr.toList = Nat.toDigits 10 n := Text.toList_toString_ofNat n
    rw [hdigits]
    exact newline_not_mem_toDigits n
  simp [h, hnumber]

/-- Rows that show lines are lines themselves. -/
theorem Shows.lines_intercalate (h : Shows source shown rows) (hne : rows ≠ []) :
    Text.lines (['\n'].intercalate (rows.map ContextRow.text)) = rows.map ContextRow.text := by
  rw [Text.lines, Text.split_eq_splitOn]
  refine List.splitOn_intercalate '\n' ?_ fun hnil => hne (List.map_eq_nil_iff.1 hnil)
  intro l hl
  obtain ⟨r, hr, rfl⟩ := List.mem_map.1 hl
  refine ContextRow.newline_not_mem_text (not_mem_of_mem_splitOn (l := source) ?_)
  rw [← Text.split_eq_splitOn]
  exact List.mem_of_getElem? (h.content r hr)

end Diagnostic

/-! ## Brackets without partners -/

/-- A bracket without its partner is reported at the place of such a
bracket. -/
theorem Program.parse_bracket_at {data : List UInt8} {e : BracketError}
    (h : Program.parse data = .error (.bracket e)) :
    ∃ before rest, data = before ++ e.symbol.byte :: rest ∧ e.position = .behind before := by
  obtain ⟨s, hs⟩ := Program.exists_parse_eq_error h
  rcases Source.parse_cases data with ⟨p, s', hp, -⟩ | ⟨p, positions, s', hp, ho⟩ |
    ⟨before, rest, hdata, -, hp⟩
  · rw [hp] at hs
    cases hs
  · rw [hp] at hs
    cases hs
    obtain ⟨before, rest, hdata, -, -, hposition⟩ := ho.innermost
    exact ⟨before, rest, hdata, hposition⟩
  · rw [hp] at hs
    cases hs
    exact ⟨before, rest, hdata, rfl⟩

/-- No command is the line feed. -/
theorem Symbol.byte_ne_newline (s : Symbol) : s.byte ≠ 10 := by
  cases s <;> decide

/-- **The line of a position**: its number is that of the line of bytes that
the bracket is on, and its column that of the bracket in it. -/
theorem Position.behind_line (before rest : List UInt8) {b : UInt8} (hb : b ≠ 10) :
    ∃ content : List UInt8,
      ((before ++ b :: rest).splitOn 10)[(behind before).line - 1]? = some content ∧
      content[(behind before).column - 1]? = some b := by
  have hb' : (b != 10) = true := bne_iff_ne.2 hb
  have hline := getElem?_splitOn_append (a := 10) before (b :: rest)
  have hrest : (b :: rest).takeWhile (· != 10) = b :: rest.takeWhile (· != 10) :=
    List.takeWhile_cons_of_pos hb'
  rw [hrest] at hline
  refine ⟨_, hline, ?_⟩
  have hcolumn : (behind before).column - 1 = (before.rtakeWhile (· != 10)).length := by
    simp [behind, List.rtakeWhile]
  rw [hcolumn, List.getElem?_append_right (Nat.le_refl _), Nat.sub_self]
  rfl

/-- The report of a bracket without its partner is a head, the rows, and a
hint, each on lines of their own. -/
theorem BracketError.lines_render (e : BracketError) (source : String)
    (h : Diagnostic.context source.toList e.position.line ≠ []) :
    ∃ head hint, Text.lines (Diagnostic.render (some source) e.diagnostic).toList =
      head :: ((Diagnostic.context source.toList e.position.line).map
        Diagnostic.ContextRow.text ++ [hint]) := by
  obtain ⟨hint, hsome, hhint⟩ : ∃ hint, e.diagnostic.hint? = some hint ∧
      '\n' ∉ ("Hint: " ++ hint).toList := by
    cases e with
    | unmatchedEnd => exact ⟨_, rfl, by decide⟩
    | unmatchedStart => exact ⟨_, rfl, by decide⟩
  have hend : e.diagnostic.hintEnd.toList = '\n' :: ("Hint: " ++ hint).toList := by
    simp [Diagnostic.hintEnd, hsome]
  have hmessage : '\n' ∉ e.message.toList := by
    cases e with
    | unmatchedEnd p =>
      have hno : '\n' ∉ (BracketError.unmatchedEnd .start).message.toList := by decide
      exact hno
    | unmatchedStart p =>
      have hno : '\n' ∉ (BracketError.unmatchedStart .start).message.toList := by decide
      exact hno
  have hhead := Diagnostic.newline_not_mem_head e.position.line e.position.column hmessage
  have hreport := Diagnostic.render_syntactic source e.message (some e.bracket) e.position.line
    e.position.column
  have hrows := (Diagnostic.context_shows source.toList e.position.line).lines_intercalate h
  rw [diagnostic] at hend
  rw [hend] at hreport
  have hlines := congrArg Text.lines hreport
  rw [Text.lines_enclosed hhead hhint, hrows] at hlines
  exact ⟨_, _, hlines⟩

/-- **The report of a bracket marks the line that the bracket is on.** Take
any bytes, UTF-8 or not, that are no program because a bracket has no
partner. The report has, between its head and its hint, the lines of the
decoded text around the one whose number the parser has counted. That line
alone is marked: it is the text of the line of bytes with this number, and
the bracket stands there at the column. For any other line, and for any
source, the report shows lines that there are, with at most one mark. -/
theorem report_marks_bracket :
    (∀ (data : List UInt8) (e : BracketError), Program.parse data = .error (.bracket e) →
      ∃ (head hint : List Char) (rows : List Diagnostic.ContextRow) (content : List UInt8),
        Text.lines (Diagnostic.render (some (String.ofList (Text.Utf8.decode data)))
          e.diagnostic).toList = head :: (rows.map Diagnostic.ContextRow.text ++ [hint]) ∧
        Diagnostic.Shows (Text.Utf8.decode data) e.position.line rows ∧
        (data.splitOn 10)[e.position.line - 1]? = some content ∧
        rows.filter Diagnostic.ContextRow.marked =
          [⟨true, e.position.line, Text.Utf8.decode content⟩] ∧
        0 < e.position.column ∧ content[e.position.column - 1]? = some e.symbol.byte) ∧
    ∀ (source message : String) (unmatched : Option Bracket) (line column : Int),
      ∃ rows : List Diagnostic.ContextRow,
        '\n' :: ['\n'].intercalate (rows.map Diagnostic.ContextRow.text) <:+:
          (Diagnostic.render (some source) ⟨.syntactic unmatched line column, message⟩).toList ∧
        Diagnostic.Shows source.toList (Diagnostic.shownLine line) rows ∧
        (rows.filter Diagnostic.ContextRow.marked).length ≤ 1 := by
  constructor
  · intro data e h
    obtain ⟨before, rest, hdata, hposition⟩ := Program.parse_bracket_at h
    obtain ⟨content, hline, hcolumn⟩ := Position.behind_line before rest e.symbol.byte_ne_newline
    rw [← hdata, ← hposition] at hline
    rw [← hposition] at hcolumn
    have hpositive : 1 ≤ e.position.line ∧ 0 < e.position.column := by
      rw [hposition]
      exact ⟨Nat.le_add_left 1 _, Nat.succ_pos _⟩
    have hshown : Diagnostic.shownLine e.position.line = e.position.line := by
      rw [Diagnostic.shownLine, Int.toNat_natCast]
      omega
    have hshows := Diagnostic.context_shows (Text.Utf8.decode data) e.position.line
    rw [hshown] at hshows
    have hcontent : (Text.lines (Text.Utf8.decode data))[e.position.line - 1]? =
        some (Text.Utf8.decode content) := by
      rw [Text.lines_decode, List.getElem?_map, hline]
      rfl
    have hmarked := hshows.filter_marked_eq hpositive.1 hcontent
    have hne : Diagnostic.context (Text.Utf8.decode data) e.position.line ≠ [] := by
      intro hnil
      rw [hnil] at hmarked
      cases hmarked
    rw [← String.toList_ofList (l := Text.Utf8.decode data)] at hne
    obtain ⟨head, hint, hlines⟩ := e.lines_render _ hne
    rw [String.toList_ofList] at hlines
    exact ⟨head, hint, _, content, hlines, hshows, hline, hmarked, hpositive.2, hcolumn⟩
  · intro source message unmatched line column
    have hshows := Diagnostic.context_shows source.toList line
    refine ⟨_, ?_, hshows, hshows.length_filter_marked_le⟩
    rw [Diagnostic.render_syntactic]
    exact ⟨_, _, rfl⟩

/-- Three lines: the beginning of a character that the first line feed cuts
short, a bracket between a byte that is no character and a carriage return,
and `+`. -/
def strayInBrokenText : List UInt8 := [0xe2, 0x82, 10, 0xff, 93, 13, 10, 43]

/-- The bracket is the second of its line, for bytes and for characters. -/
theorem report_marks_bracket_strayInBrokenText :
    Program.parse strayInBrokenText = .error (.bracket (.unmatchedEnd ⟨4, 2, 2⟩)) ∧
    ∃ (head hint : List Char) (rows : List Diagnostic.ContextRow),
      Text.lines (Diagnostic.render (some (String.ofList (Text.Utf8.decode strayInBrokenText)))
        (BracketError.unmatchedEnd ⟨4, 2, 2⟩).diagnostic).toList =
          head :: (rows.map Diagnostic.ContextRow.text ++ [hint]) ∧
      rows.map Diagnostic.ContextRow.number = [1, 2, 3] ∧
      rows.filter Diagnostic.ContextRow.marked = [⟨true, 2, ['\ufffd', ']', '\r']⟩] := by
  have hparse : Program.parse strayInBrokenText =
      .error (.bracket (.unmatchedEnd ⟨4, 2, 2⟩)) := rfl
  obtain ⟨head, hint, rows, content, hlines, hshows, hline, hmarked, -, -⟩ :=
    report_marks_bracket.1 strayInBrokenText _ hparse
  have hsecond : content = [0xff, 93, 13] := Option.some.inj (hline.symm.trans rfl)
  subst hsecond
  exact ⟨hparse, head, hint, rows, hlines, hshows.numbers, hmarked⟩

end Brainfuck
