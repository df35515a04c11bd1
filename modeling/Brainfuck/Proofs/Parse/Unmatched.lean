import Brainfuck.Proofs.Parse.Depth
import Brainfuck.Proofs.Parse.Feed
/-!
# Brackets without partners

Which bracket is reported depends on the whole of a source, and its place
is noted long before the error is known. `OpenAt` keeps the two together:
it says at which positions the brackets stand that are open behind some
bytes. Every byte that the parser takes preserves it (`feed_openAt`), the
positions being counted byte by byte there and by the bytes in front here
(`Position.next_behind`).

`parse_error_at` reads off what the parser reports, and where it stops.
-/

namespace Brainfuck

/-! ## Positions -/

/-- The position of the byte that has the given bytes in front of it: their
number, and how many line feeds are among them and how many bytes behind
the last of these, both counted from one. -/
def Position.behind (before : List UInt8) : Position :=
  ⟨before.length, before.count 10 + 1, (before.reverse.takeWhile (· != 10)).length + 1⟩

/-- The first byte of a source. -/
theorem Position.next_start : Position.start.next false = .behind [] := rfl

/-- **Counting byte by byte leads to the position.** -/
theorem Position.next_behind (before : List UInt8) (b : UInt8) :
    (behind before).next (b = 10) = behind (before ++ [b]) := by
  by_cases hb : b = 10
  · subst hb
    simp [behind, next]
  · have hne : (b != 10) = true := by simpa using hb
    simp [behind, next, hb, hne]

/-! ## Open brackets -/

/-- The brackets that are open behind some bytes stand at the positions,
innermost first. With none open the bytes are a code; otherwise there is an
innermost one, and what follows it is a code. -/
inductive OpenAt : List UInt8 → List Position → Prop where
  | outside {data : List UInt8} {tree : Program} : Derives (commands data) tree → OpenAt data []
  | inside {before data : List UInt8} {positions : List Position} {tree : Program} :
      OpenAt before positions → Derives (commands data) tree →
      OpenAt (before ++ Symbol.loopStart.byte :: data) (.behind before :: positions)

namespace OpenAt

variable {data more : List UInt8} {positions : List Position} {p : Position}

/-- Before the first byte nothing is open. -/
theorem start : OpenAt [] [] := .outside .nil

/-- A code opens nothing and closes nothing. -/
theorem append {tree : Program} (h : OpenAt data positions) (hm : Derives (commands more) tree) :
    OpenAt (data ++ more) positions := by
  cases h with
  | outside hd =>
    have hboth := hd.append hm
    rw [← commands_append] at hboth
    exact .outside hboth
  | inside hb hd =>
    have hboth := hd.append hm
    rw [← commands_append] at hboth
    rw [List.append_assoc, List.cons_append]
    exact .inside hb hboth

/-- A closing bracket takes the innermost one away. -/
theorem close (h : OpenAt data (p :: positions)) :
    OpenAt (data ++ [Symbol.loopEnd.byte]) positions := by
  cases h with
  | @inside before data _ tree hb hd =>
    have hl : Derives (commands (Symbol.loopStart.byte :: data ++ [Symbol.loopEnd.byte]))
        (.loop tree .nil) := by
      rw [commands_append, commands_byte_cons, commands_byte_cons]
      exact hd.brackets
    rw [List.append_assoc]
    exact hb.append hl

/-- No bytes in front close more than they open. -/
theorem depth_nonneg (h : OpenAt data positions) :
    ∀ pre, pre <+: data → 0 ≤ depth (commands pre) := by
  induction h with
  | outside hd =>
    intro pre hp
    exact hd.depth_nonneg (commands_mono hp)
  | @inside before data positions tree _ hd ih =>
    intro pre hp
    rcases prefix_append_cases hp with hin | ⟨mid, hmid, rfl⟩
    · exact ih pre hin
    have hbefore := ih before (List.prefix_refl before)
    rw [commands_append, depth_append]
    rcases List.prefix_cons_iff.mp hmid with rfl | ⟨mid, rfl, hdata⟩
    · exact Int.add_nonneg hbefore (Int.le_refl 0)
    · have := hd.depth_nonneg (commands_mono hdata)
      rw [commands_byte_cons, depth_cons, depth_loopStart]
      omega

/-- With nothing open, a closing bracket is one too many. -/
theorem depth_close (h : OpenAt data []) :
    depth (commands (data ++ [Symbol.loopEnd.byte])) = -1 := by
  cases h with
  | outside hd =>
    rw [commands_append, depth_append, hd.depth_eq]
    rfl

/-- **The innermost open bracket is the last that has no partner.** -/
theorem innermost (h : OpenAt data (p :: positions)) :
    ∃ before after, data = before ++ Symbol.loopStart.byte :: after ∧
      ¬ Closes (commands after) ∧
      (∀ before' after', data = before' ++ Symbol.loopStart.byte :: after' →
        ¬ Closes (commands after') → before'.length ≤ before.length) ∧
      p = .behind before := by
  cases h with
  | @inside before data _ tree hb hd =>
    refine ⟨before, data, rfl, hd.not_closes, ?_, rfl⟩
    intro before' after' heq hopen
    -- an opening bracket further right is one of the code behind, and closed there
    rcases List.append_eq_append_iff.mp heq with ⟨mid, rfl, hmid⟩ | ⟨mid, rfl, -⟩
    · cases mid with
      | nil => simp
      | cons b mid =>
        have hdata : data = mid ++ Symbol.loopStart.byte :: after' := (List.cons.inj hmid).2
        rw [hdata, commands_append, commands_byte_cons] at hd
        exact (hopen (hd.closes rfl)).elim
    · simp

end OpenAt

/-! ## Taking a byte -/

namespace Draft

/-- The positions of the brackets that are open. -/
def positions (d : Draft) : List Position := d.loops.map OpenLoop.position

/-- **What taking a byte can be**, as far as the open loops go: none, one
more, or one less. -/
theorem feed_cases {p : Position} {b : UInt8} {d d' : Draft}
    (h : d.feed p (Symbol.ofByte? b) = .ok d') :
    ((∃ tree, Derives (commands [b]) tree) ∧ d'.positions = d.positions) ∨
    (b = Symbol.loopStart.byte ∧ d'.positions = p :: d.positions) ∨
    (b = Symbol.loopEnd.byte ∧ ∃ q, d.positions = q :: d'.positions) := by
  cases hb : Symbol.ofByte? b with
  | none =>
    rw [hb] at h
    obtain rfl := Except.ok.inj h
    have hc : commands [b] = [] := List.filterMap_cons_none hb
    exact Or.inl ⟨⟨.nil, hc ▸ .nil⟩, rfl⟩
  | some s =>
    rw [hb] at h
    obtain rfl := Symbol.ofByte?_eq_some_iff.mp hb
    obtain ⟨a, hs⟩ | rfl | rfl := s.statement_or_bracket
    · have hc : commands [s.byte] = [s] := commands_byte_cons s []
      have hd : d' = d.push (.act a) := by
        cases hs <;> exact (Except.ok.inj h).symm
      exact Or.inl ⟨⟨.act a .nil, hc ▸ .simple hs .nil⟩, by rw [hd]; rfl⟩
    · obtain rfl := Except.ok.inj h
      exact Or.inr (Or.inl ⟨rfl, rfl⟩)
    · refine Or.inr (Or.inr ⟨rfl, ?_⟩)
      obtain ⟨body, _ | ⟨l, loops⟩⟩ := d
      · cases h
      · refine ⟨l.position, ?_⟩
        simp only [feed, closeLoop] at h
        split at h <;>
        · obtain rfl := Except.ok.inj h
          rfl

/-- **Only a closing bracket cannot be taken**, and only with no loop open. -/
theorem feed_error {p : Position} {b : UInt8} {d : Draft} {e : BracketError}
    (h : d.feed p (Symbol.ofByte? b) = .error e) :
    b = Symbol.loopEnd.byte ∧ d.positions = [] ∧ e = .unmatchedEnd p := by
  cases hb : Symbol.ofByte? b with
  | none =>
    rw [hb] at h
    cases h
  | some s =>
    rw [hb] at h
    obtain rfl := Symbol.ofByte?_eq_some_iff.mp hb
    obtain ⟨a, hs⟩ | rfl | rfl := s.statement_or_bracket
    · cases hs <;> cases h
    · cases h
    · obtain ⟨body, _ | ⟨l, loops⟩⟩ := d
      · exact ⟨rfl, rfl, (Except.error.inj h).symm⟩
      · simp only [feed, closeLoop] at h
        split at h <;> cases h

/-- **A byte that is taken keeps the open brackets right.** -/
theorem feed_openAt {data : List UInt8} {b : UInt8} {d d' : Draft}
    (ho : OpenAt data d.positions) (h : d.feed (.behind data) (Symbol.ofByte? b) = .ok d') :
    OpenAt (data ++ [b]) d'.positions := by
  rcases feed_cases h with ⟨⟨tree, ht⟩, hp⟩ | ⟨rfl, hp⟩ | ⟨rfl, q, hp⟩
  · rw [hp]
    exact ho.append ht
  · have hnothing : Derives (commands []) .nil := .nil
    rw [hp]
    exact .inside ho hnothing
  · rw [hp] at ho
    exact ho.close

end Draft

/-! ## Taking a source -/

namespace Source

/-- **The parser takes all bytes, or stops behind a bracket that closes
nothing**, and then it has asked for nothing beyond that bracket. -/
theorem feedTo_openAt (data : List UInt8) : ∀ (done : List UInt8) (d : Draft) (n : Nat)
    (position : Position) (afterNewline : Bool), position.next afterNewline = .behind done →
    OpenAt done d.positions → data.length < n →
    (∃ d' s, feedTo d n (.after position afterNewline data) = .ok d' s ∧
      OpenAt (done ++ data) d'.positions) ∨
    ∃ before rest, data = before ++ Symbol.loopEnd.byte :: rest ∧ OpenAt (done ++ before) [] ∧
      feedTo d n (.after position afterNewline data) =
        .error (.bracket (.unmatchedEnd (.behind (done ++ before))))
          (.after (.behind (done ++ before)) false rest) := by
  induction data with
  | nil =>
    intro done d n position afterNewline _ ho hn
    obtain ⟨n, rfl⟩ : ∃ m, n = m + 1 := ⟨n - 1, by omega⟩
    rw [List.append_nil]
    exact Or.inl ⟨d, _, feedTo_after_nil d n position afterNewline, ho⟩
  | cons b data ih =>
    intro done d n position afterNewline hp ho hn
    obtain ⟨n, rfl⟩ : ∃ m, n = m + 1 := ⟨n - 1, by omega⟩
    have hlt : data.length < n := Nat.lt_of_succ_lt_succ hn
    rw [feedTo_after_cons, hp]
    cases hf : d.feed (.behind done) (Symbol.ofByte? b) with
    | error e =>
      obtain ⟨rfl, hd, rfl⟩ := Draft.feed_error hf
      refine Or.inr ⟨[], data, rfl, ?_, ?_⟩
      · rw [List.append_nil, ← hd]
        exact ho
      · rw [List.append_nil]
        rfl
    | ok d' =>
      have hnext := ih (done ++ [b]) d' n (.behind done) (b = 10) (Position.next_behind done b)
        (Draft.feed_openAt ho hf) hlt
      rw [List.append_cons done b data]
      rcases hnext with ⟨d'', s, hd, ho'⟩ | ⟨before, rest, rfl, ho', hd⟩
      · exact Or.inl ⟨d'', s, hd, ho'⟩
      · rw [← List.append_cons] at ho' hd
        exact Or.inr ⟨b :: before, rest, rfl, ho', hd⟩

/-- **What parsing a source of bytes comes to**: a program with no bracket
open, the innermost bracket that is still open at the end, or a closing
bracket where none is open. -/
theorem parse_cases (data : List UInt8) :
    (∃ p s, parse (.ofBytes data) = .ok p s ∧ OpenAt data []) ∨
    (∃ p positions s, parse (.ofBytes data) = .error (.bracket (.unmatchedStart p)) s ∧
      OpenAt data (p :: positions)) ∨
    ∃ before rest, data = before ++ Symbol.loopEnd.byte :: rest ∧ OpenAt before [] ∧
      parse (.ofBytes data) = .error (.bracket (.unmatchedEnd (.behind before)))
        (.after (.behind before) false rest) := by
  rw [parse_ofBytes]
  simp only [bind, EStateM.bind]
  rcases feedTo_openAt data [] {} (data.length + 1) .start false Position.next_start .start
    (Nat.lt_succ_self _) with ⟨⟨body, loops⟩, s, hd, ho⟩ | ⟨before, rest, rfl, ho, hd⟩
  · rw [hd]
    cases loops with
    | nil => exact Or.inl ⟨_, s, rfl, ho⟩
    | cons l loops => exact Or.inr (Or.inl ⟨l.position, _, s, rfl, ho⟩)
  · rw [hd]
    exact Or.inr (Or.inr ⟨before, rest, rfl, ho, rfl⟩)

end Source

/-! ## What is reported -/

theorem Program.exists_parse_eq_error {data : List UInt8} {e : ParseError}
    (h : Program.parse data = .error e) : ∃ s, Source.parse (.ofBytes data) = .error e s := by
  cases hs : Source.parse (.ofBytes data) with
  | ok p s =>
    rw [Program.parse_of_ok hs] at h
    cases h
  | error e' s =>
    rw [Program.parse_of_error hs] at h
    obtain rfl := Except.error.inj h
    exact ⟨s, rfl⟩

/-- **The parser reports the right bracket at its place.** If some first
bytes close more brackets than they open, it reports the last byte of the
shortest such piece, and has read that piece and nothing behind it.
Otherwise it reports the last opening bracket that has no partner. -/
theorem parse_error_at {data : List UInt8} {e : ParseError}
    (h : Program.parse data = .error e) :
    ((∃ pre, pre <+: data ∧ depth (commands pre) < 0) →
      ∃ before rest, data = before ++ Symbol.loopEnd.byte :: rest ∧
        depth (commands (before ++ [Symbol.loopEnd.byte])) < 0 ∧
        (∀ pre, pre <+: data → depth (commands pre) < 0 → before.length < pre.length) ∧
        e = .bracket (.unmatchedEnd (.behind before)) ∧
        Source.parse (.ofBytes data) = .error e (.after (.behind before) false rest)) ∧
    ((∀ pre, pre <+: data → 0 ≤ depth (commands pre)) →
      ∃ before after, data = before ++ Symbol.loopStart.byte :: after ∧
        ¬ Closes (commands after) ∧
        (∀ before' after', data = before' ++ Symbol.loopStart.byte :: after' →
          ¬ Closes (commands after') → before'.length ≤ before.length) ∧
        e = .bracket (.unmatchedStart (.behind before))) := by
  obtain ⟨s, hs⟩ := Program.exists_parse_eq_error h
  rcases Source.parse_cases data with ⟨p, s', hp, -⟩ | ⟨p, positions, s', hp, ho⟩ |
    ⟨before, rest, rfl, ho, hp⟩
  · rw [hp] at hs
    cases hs
  · rw [hp] at hs
    cases hs
    constructor
    · rintro ⟨pre, hpre, hneg⟩
      exact absurd (ho.depth_nonneg pre hpre) (by omega)
    · intro _
      obtain ⟨before, after, hdata, hopen, hlast, rfl⟩ := ho.innermost
      exact ⟨before, after, hdata, hopen, hlast, rfl⟩
  · rw [hp] at hs
    cases hs
    have hclose := ho.depth_close
    have hpiece : before ++ [Symbol.loopEnd.byte] <+: before ++ Symbol.loopEnd.byte :: rest :=
      (List.prefix_append_right_inj before).mpr (List.prefix_append [Symbol.loopEnd.byte] rest)
    constructor
    · intro _
      refine ⟨before, rest, rfl, by omega, ?_, rfl, hp⟩
      intro pre hpre hneg
      refine Nat.lt_of_not_le fun hle => ?_
      have hin := List.prefix_of_prefix_length_le hpre (List.prefix_append before _) hle
      exact absurd (ho.depth_nonneg pre hin) (by omega)
    · intro hall
      exact absurd (hall _ hpiece) (by omega)

/-- The lines `+` and `[] ][`, in which the second closing bracket has no
partner. -/
def strayEnd : List UInt8 := [43, 10, 91, 93, 32, 93, 91]

/-- The lines `[` and `[+[]`, in which two brackets are left open. -/
def strayStarts : List UInt8 := [91, 10, 91, 43, 91, 93]

/-- In `strayEnd` the bracket at the fourth place of the second line is
reported, with the last bracket unread; in `strayStarts` it is the first of
the second line. -/
theorem parse_error_at_strayEnd_strayStarts :
    Program.parse strayEnd = .error (.bracket (.unmatchedEnd ⟨5, 2, 4⟩)) ∧
    (∃ pre, pre <+: strayEnd ∧ depth (commands pre) < 0) ∧
    (∃ before rest, strayEnd = before ++ Symbol.loopEnd.byte :: rest ∧
      depth (commands (before ++ [Symbol.loopEnd.byte])) < 0 ∧
      (∀ pre, pre <+: strayEnd → depth (commands pre) < 0 → before.length < pre.length) ∧
      ParseError.bracket (.unmatchedEnd ⟨5, 2, 4⟩) = .bracket (.unmatchedEnd (.behind before)) ∧
      Source.parse (.ofBytes strayEnd) = .error (.bracket (.unmatchedEnd ⟨5, 2, 4⟩))
        (.after (.behind before) false rest)) ∧
    Program.parse strayStarts = .error (.bracket (.unmatchedStart ⟨2, 2, 1⟩)) ∧
    (∀ pre, pre <+: strayStarts → 0 ≤ depth (commands pre)) ∧
    ∃ before after, strayStarts = before ++ Symbol.loopStart.byte :: after ∧
      ¬ Closes (commands after) ∧
      (∀ before' after', strayStarts = before' ++ Symbol.loopStart.byte :: after' →
        ¬ Closes (commands after') → before'.length ≤ before.length) ∧
      ParseError.bracket (.unmatchedStart ⟨2, 2, 1⟩) =
        .bracket (.unmatchedStart (.behind before)) := by
  have hend : Program.parse strayEnd = .error (.bracket (.unmatchedEnd ⟨5, 2, 4⟩)) := rfl
  have hexcess : ∃ pre, pre <+: strayEnd ∧ depth (commands pre) < 0 :=
    ⟨[43, 10, 91, 93, 32, 93], ⟨[91], rfl⟩, by decide⟩
  have hstart : Program.parse strayStarts = .error (.bracket (.unmatchedStart ⟨2, 2, 1⟩)) := rfl
  have hopen : OpenAt ([] ++ Symbol.loopStart.byte :: [10]) [.behind []] := .inside .start .nil
  have hcode : Derives (commands [43, 91, 93]) (.act (.add 1) (.loop .nil .nil)) :=
    .simple .increment (.loop .nil .nil)
  have hwithin : ∀ pre, pre <+: strayStarts → 0 ≤ depth (commands pre) :=
    (OpenAt.inside hopen hcode).depth_nonneg
  exact ⟨hend, hexcess, (parse_error_at hend).1 hexcess, hstart, hwithin,
    (parse_error_at hstart).2 hwithin⟩

end Brainfuck
