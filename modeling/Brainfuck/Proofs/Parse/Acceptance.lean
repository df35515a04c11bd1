import Brainfuck.Proofs.Parse.Derivation
import Brainfuck.Proofs.Parse.Feed
/-!
# The parser accepts the grammar

The parser keeps one body for each bracket that is open, and the grammar
knows no open brackets at all. What ties them together is `Draft.Reads`:
what a draft has taken is a code, or what an outer draft has taken, an
opening bracket and a code behind it; and the bodies of the draft are the
trees of these codes without their empty loops. Every command the parser
takes preserves it (`Reads.feed`), and a draft with no open loop has taken a
code. In the other direction a code is taken by any draft, whatever is
open there, and adds its tree to the innermost body (`Derives.feedAll_eq`).

Together they are `parse_accepts_iff`.
-/

namespace Brainfuck

namespace Draft

/-! ## Adding to a draft -/

/-- The draft with a program at the end of its innermost body. -/
def extend (d : Draft) (p : Program) : Draft := { d with body := p.toList.reverse ++ d.body }

@[simp] theorem extend_nil (d : Draft) : d.extend .nil = d := rfl

/-- Two programs are added one after the other, or as one. -/
@[simp] theorem extend_extend (d : Draft) (p q : Program) :
    (d.extend p).extend q = d.extend (p ++ q) := by
  simp [extend]

theorem program_reverse_append (p : Program) (body : List Instruction) :
    program (p.toList.reverse ++ body) = program body ++ p := by
  have hl : (p.toList.reverse ++ body).reverse = (program body ++ p).toList := by
    simp [program]
  unfold program at hl ⊢
  rw [hl, Program.ofList_toList]

/-- A statement adds its action. -/
theorem feed_statement {s : Symbol} {a : Action} (h : Statement s a) (p : Position) (d : Draft) :
    d.feed p (some s) = .ok (d.extend (.act a .nil)) := by
  cases h <;> rfl

theorem feed_loopStart (p : Position) (d : Draft) :
    d.feed p (some .loopStart) = .ok (d.openLoop p) := rfl

/-- A closing bracket adds the innermost body as a loop to the body around
it, or nothing if that body is empty. -/
theorem feed_loopEnd (p q : Position) (d : Draft) (body : Program) :
    ((d.openLoop q).extend body).feed p (some .loopEnd) =
      .ok (d.extend (Program.keepLoop body .nil)) := by
  have hclose : ((d.openLoop q).extend body).feed p (some .loopEnd) =
      if (body.toList.reverse ++ []).isEmpty then .ok d
      else .ok ⟨.loop (program (body.toList.reverse ++ [])) :: d.body, d.loops⟩ := rfl
  rw [hclose, program_reverse_append]
  by_cases hb : body = .nil
  · subst hb
    rfl
  · have hne : ¬ (body.toList.reverse ++ []).isEmpty = true := by
      intro he
      have hnil : body.toList = [] := by simpa using he
      exact hb (by rw [← Program.ofList_toList body, hnil, Program.ofList_nil])
    rw [if_neg hne, Program.keepLoop_of_ne_nil hb]
    rfl

/-- With no loop open a closing bracket is an error. -/
theorem feed_loopEnd_outside (p : Position) (body : Program) :
    (({} : Draft).extend body).feed p (some .loopEnd) = .error (.unmatchedEnd p) := rfl

/-- With no loop open the draft is its body. -/
theorem finish_outside (body : Program) : (({} : Draft).extend body).finish = .ok body := by
  have hf : (({} : Draft).extend body).finish = .ok (program (body.toList.reverse ++ [])) := rfl
  rw [hf, program_reverse_append]
  rfl

/-- With a loop open the draft is an error at its bracket. -/
theorem finish_inside (d : Draft) (p : Position) (body : Program) :
    ((d.openLoop p).extend body).finish = .error (.unmatchedStart p) := rfl

end Draft

/-! ## A code is taken -/

/-- **Every draft takes a code.** It adds the tree of the code, without its
empty loops, to the innermost body. -/
theorem Derives.feedAll_eq {code : List Symbol} {tree : Program} (h : Derives code tree) :
    ∀ (ms : List (Position × Symbol)) (d : Draft), ms.map Prod.snd = code →
      d.feedAll ms = .ok (d.extend tree.withoutEmptyLoops) := by
  induction h with
  | nil =>
    intro ms d hms
    rw [List.map_eq_nil_iff] at hms
    rw [hms, Draft.feedAll_nil, Program.withoutEmptyLoops_nil, Draft.extend_nil]
  | @simple s a code rest hs _ ih =>
    intro ms d hms
    obtain ⟨⟨p, _⟩, ms, rfl, rfl, hrow⟩ := List.map_eq_cons_iff.mp hms
    have htail := ih ms (d.extend (.act a .nil)) hrow
    rw [Draft.extend_extend] at htail
    rw [Draft.feedAll_cons, Draft.feed_statement hs]
    exact htail
  | @loop inside code body rest _ _ ihb ih =>
    intro ms d hms
    -- The row is an opening bracket, the inside, a closing bracket and the rest.
    obtain ⟨ms₁, ms₂, rfl, hms₁, hms₂⟩ := List.map_eq_append_iff.mp hms
    obtain ⟨⟨p, _⟩, ms₁, rfl, rfl, hrow₁⟩ := List.map_eq_cons_iff.mp hms₁
    obtain ⟨⟨q, _⟩, ms₂, rfl, rfl, hrow₂⟩ := List.map_eq_cons_iff.mp hms₂
    have hinside := ihb ms₁ (d.openLoop p) hrow₁
    have hrest := ih ms₂ (d.extend (Program.keepLoop body.withoutEmptyLoops .nil)) hrow₂
    rw [Draft.extend_extend, Program.keepLoop_append] at hrest
    calc d.feedAll ((p, .loopStart) :: ms₁ ++ (q, .loopEnd) :: ms₂)
        = (d.openLoop p).feedAll ms₁ >>= fun d => d.feedAll ((q, .loopEnd) :: ms₂) := by
          rw [List.cons_append, Draft.feedAll_cons, Draft.feed_loopStart]
          exact Draft.feedAll_append _ _ _
      _ = ((d.openLoop p).extend body.withoutEmptyLoops).feed q (some .loopEnd) >>=
            fun d => d.feedAll ms₂ := by
          rw [hinside]
          exact Draft.feedAll_cons _ _ _ _
      _ = .ok (d.extend (Program.loop body rest).withoutEmptyLoops) := by
          rw [Draft.feed_loopEnd]
          exact hrest

/-! ## What was taken is a code -/

/-- The commands a draft has taken. With no loop open they are a code; with
a loop open they are what was taken before its bracket, the bracket, and a
code. The innermost body is the tree of that code, without its empty
loops. -/
inductive Draft.Reads : List Symbol → Draft → Prop where
  | outside {code : List Symbol} {tree : Program} : Derives code tree →
      Reads code (({} : Draft).extend tree.withoutEmptyLoops)
  | inside {before code : List Symbol} {d : Draft} {p : Position} {tree : Program} :
      Reads before d → Derives code tree →
      Reads (before ++ .loopStart :: code) ((d.openLoop p).extend tree.withoutEmptyLoops)

namespace Draft.Reads

/-- Before the first command nothing is taken. -/
theorem start : Reads [] {} := .outside .nil

/-- A code that is taken belongs to the innermost body. -/
theorem append {code code' : List Symbol} {d : Draft} {tree : Program} (h : Reads code d)
    (h' : Derives code' tree) : Reads (code ++ code') (d.extend tree.withoutEmptyLoops) := by
  cases h with
  | outside hc =>
    rw [extend_extend, ← Program.withoutEmptyLoops_append]
    exact .outside (hc.append h')
  | inside hb hc =>
    rw [extend_extend, ← Program.withoutEmptyLoops_append, List.append_assoc, List.cons_append]
    exact .inside hb (hc.append h')

/-- **One command keeps it.** -/
theorem feed {code : List Symbol} {d d' : Draft} {p : Position} {s : Symbol} (h : Reads code d)
    (hf : d.feed p (some s) = .ok d') : Reads (code ++ [s]) d' := by
  obtain ⟨a, hs⟩ | rfl | rfl := s.statement_or_bracket
  · rw [feed_statement hs] at hf
    obtain rfl := Except.ok.inj hf
    exact h.append (.simple hs .nil)
  · rw [feed_loopStart] at hf
    obtain rfl := Except.ok.inj hf
    exact .inside h .nil
  · cases h with
    | outside hc =>
      rw [feed_loopEnd_outside] at hf
      cases hf
    | @inside before code d q tree hb hc =>
      rw [feed_loopEnd] at hf
      obtain rfl := Except.ok.inj hf
      -- The loop that is closed is a code for the draft around it.
      have hl := hb.append hc.brackets
      rwa [Program.withoutEmptyLoops_loop, Program.withoutEmptyLoops_nil,
        ← List.append_assoc] at hl

/-- A row of commands keeps it. -/
theorem feedAll {ms : List (Position × Symbol)} : ∀ {code : List Symbol} {d d' : Draft},
    Reads code d → d.feedAll ms = .ok d' → Reads (code ++ ms.map Prod.snd) d' := by
  induction ms with
  | nil =>
    intro code d d' h hf
    obtain rfl := Except.ok.inj hf
    rw [List.map_nil, List.append_nil]
    exact h
  | cons m ms ih =>
    obtain ⟨p, s⟩ := m
    intro code d d' h hf
    rw [feedAll_cons] at hf
    cases hs : d.feed p (some s) with
    | error e =>
      rw [hs] at hf
      cases hf
    | ok d₁ =>
      rw [hs] at hf
      -- the rest is taken by a draft that reads one command more
      have hms := ih (h.feed hs) hf
      rwa [List.append_assoc] at hms

/-- Commands after which a draft can be finished are a code. -/
theorem finish {code : List Symbol} {d : Draft} {p : Program} (h : Reads code d)
    (hf : d.finish = .ok p) : ∃ tree, Derives code tree ∧ p = tree.withoutEmptyLoops := by
  cases h with
  | @outside code tree hc =>
    rw [finish_outside] at hf
    exact ⟨tree, hc, (Except.ok.inj hf).symm⟩
  | inside hb hc =>
    rw [finish_inside] at hf
    cases hf

end Draft.Reads

/-! ## The parser and the grammar -/

/-- The parser returns a program exactly if the draft of all commands can be
finished. -/
theorem Program.parse_eq_ok_iff {data : List UInt8} {p : Program} :
    Program.parse data = .ok p ↔
      ∃ d, ({} : Draft).feedAll (marks .start false data) = .ok d ∧ d.finish = .ok p := by
  rw [Program.parse_eq]
  constructor
  · intro h
    cases hd : ({} : Draft).feedAll (marks .start false data) with
    | error e =>
      rw [hd] at h
      cases h
    | ok d =>
      rw [hd] at h
      have hfinish : d.finish.mapError ParseError.bracket = .ok p := h
      cases hf : d.finish with
      | error e =>
        rw [hf] at hfinish
        cases hfinish
      | ok q =>
        rw [hf] at hfinish
        exact ⟨d, rfl, hf.trans (by rw [Except.ok.inj hfinish])⟩
  · rintro ⟨d, hd, hf⟩
    have hbind : ({} : Draft).feedAll (marks .start false data) >>= Draft.finish = .ok p := by
      rw [hd]
      exact hf
    rw [hbind]
    rfl

/-- The parser accepts a code, and returns its tree without the empty
loops. -/
theorem Derives.parse_eq {data : List UInt8} {tree : Program}
    (h : Derives (commands data) tree) : Program.parse data = .ok tree.withoutEmptyLoops := by
  rw [Program.parse_eq_ok_iff]
  have hf := h.feedAll_eq (marks .start false data) {} (map_snd_marks _ _ _)
  exact ⟨_, hf, Draft.finish_outside _⟩

/-- What the parser accepts is a code. -/
theorem Program.exists_derives_of_parse {data : List UInt8} {p : Program}
    (h : Program.parse data = .ok p) :
    ∃ tree, Derives (commands data) tree ∧ p = tree.withoutEmptyLoops := by
  obtain ⟨d, hd, hp⟩ := Program.parse_eq_ok_iff.mp h
  have hr := Draft.Reads.start.feedAll hd
  rw [List.nil_append, map_snd_marks] at hr
  exact hr.finish hp

/-- **The parser accepts the grammar and builds its tree.** It accepts bytes
exactly if the commands among them are a code. A code has one tree, and
what the parser returns is that tree without its empty loops, and without
those that become empty. -/
theorem parse_accepts_iff (data : List UInt8) :
    ((∃ p, Program.parse data = .ok p) ↔ ∃ tree, Derives (commands data) tree) ∧
    ∀ tree, Derives (commands data) tree →
      (∀ other, Derives (commands data) other → other = tree) ∧
      Program.parse data = .ok tree.withoutEmptyLoops := by
  constructor
  · constructor
    · rintro ⟨p, hp⟩
      obtain ⟨tree, ht, _⟩ := Program.exists_derives_of_parse hp
      exact ⟨tree, ht⟩
    · rintro ⟨tree, ht⟩
      exact ⟨_, ht.parse_eq⟩
  · intro tree ht
    exact ⟨fun other ho => ho.tree_eq ht, ht.parse_eq⟩

/-- The bytes `[[]x]`, one that is no character, and `+[>],`: comment between
the brackets of a loop that becomes empty, and between commands. -/
def commented : List UInt8 := [91, 91, 93, 120, 93, 255, 43, 91, 62, 93, 44]

/-- The tree of `commented`. -/
def commentedTree : Program :=
  .loop (.loop .nil .nil)
    (.act (.add 1) (.loop (.act (.move 1) .nil) (.act .input .nil)))

/-- `commented` is accepted, and what is returned begins at its `+`. -/
theorem parse_accepts_iff_commented :
    Derives (commands commented) commentedTree ∧
    (∃ p, Program.parse commented = .ok p) ∧
    (∀ other, Derives (commands commented) other → other = commentedTree) ∧
    Program.parse commented =
      .ok (.act (.add 1) (.loop (.act (.move 1) .nil) (.act .input .nil))) := by
  have hempty : Derives ([.loopStart, .loopStart, .loopEnd, .loopEnd] ++ [])
      (.loop (.loop .nil .nil) .nil) := .loop (.loop .nil .nil) .nil
  have hrest : Derives [.increment, .loopStart, .shiftRight, .loopEnd, .input]
      (.act (.add 1) (.loop (.act (.move 1) .nil) (.act .input .nil))) :=
    .simple .increment (.loop (.simple .shiftRight .nil) (.simple .input .nil))
  have ht : Derives (commands commented) commentedTree := hempty.append hrest
  obtain ⟨hiff, htree⟩ := parse_accepts_iff commented
  obtain ⟨hunique, hparse⟩ := htree commentedTree ht
  exact ⟨ht, hiff.mpr ⟨_, ht⟩, hunique, hparse⟩

end Brainfuck
