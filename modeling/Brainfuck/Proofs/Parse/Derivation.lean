import Brainfuck.Program.Grammar
/-!
# Derivations

Two codes in a row are a code, and its tree is one tree after the other. A
code has one tree: read from the left, a derivation has no choice, because
the first command of what is left says which statement comes next, and a
code that is followed by a closing bracket has to end there
(`tree_eq_of_append_eq`).
-/

namespace Brainfuck

/-- A command is one of the six statements or a bracket. -/
theorem Symbol.statement_or_bracket (s : Symbol) :
    (∃ a, Statement s a) ∨ s = .loopStart ∨ s = .loopEnd := by
  cases s
  case loopStart => exact .inr (.inl rfl)
  case loopEnd => exact .inr (.inr rfl)
  all_goals exact .inl ⟨_, Symbol.action?_eq_some_iff.mp rfl⟩

/-- A statement stands for one action. -/
theorem Statement.action_eq {s : Symbol} {a b : Action} (ha : Statement s a)
    (hb : Statement s b) : a = b := by
  rw [← Symbol.action?_eq_some_iff] at ha hb
  rw [ha] at hb
  exact Option.some.inj hb

theorem Statement.ne_loopStart {s : Symbol} {a : Action} (h : Statement s a) :
    s ≠ .loopStart := by
  rintro rfl
  cases h

theorem Statement.ne_loopEnd {s : Symbol} {a : Action} (h : Statement s a) : s ≠ .loopEnd := by
  rintro rfl
  cases h

namespace Program

@[simp] theorem withoutEmptyLoops_nil : withoutEmptyLoops nil = nil := rfl

@[simp] theorem withoutEmptyLoops_act (a : Action) (r : Program) :
    (act a r).withoutEmptyLoops = act a r.withoutEmptyLoops := rfl

@[simp] theorem withoutEmptyLoops_loop (b r : Program) :
    (loop b r).withoutEmptyLoops = keepLoop b.withoutEmptyLoops r.withoutEmptyLoops := rfl

/-- Loops are taken out of each part for itself. -/
@[simp] theorem withoutEmptyLoops_append (p q : Program) :
    (p ++ q).withoutEmptyLoops = p.withoutEmptyLoops ++ q.withoutEmptyLoops := by
  induction p with
  | nil => rfl
  | act a r ih => simp [ih]
  | loop b r _ ih => simp [ih]

end Program

namespace Derives

/-- One code after another is a code. -/
theorem append {code code' : List Symbol} {tree tree' : Program} (h : Derives code tree)
    (h' : Derives code' tree') : Derives (code ++ code') (tree ++ tree') := by
  induction h with
  | nil => exact h'
  | simple hs _ ih => exact .simple hs ih
  | loop hb _ _ ih =>
    have hl := Derives.loop hb ih
    simpa only [List.append_assoc, List.cons_append, Program.loop_append] using hl

/-- A code in brackets is a code. -/
theorem brackets {code : List Symbol} {tree : Program} (h : Derives code tree) :
    Derives (.loopStart :: code ++ [.loopEnd]) (.loop tree .nil) :=
  .loop h .nil

/-- What may stand behind a code: nothing, or a bracket that closes a loop
around it. -/
def Stops (rest : List Symbol) : Prop := ∀ s ∈ rest.head?, s = .loopEnd

theorem stops_nil : Stops [] := fun _ hs => nomatch hs

theorem stops_loopEnd (code : List Symbol) : Stops (.loopEnd :: code) := by
  intro s hs
  exact (Option.some.inj hs).symm

/-- A code that is more than nothing does not begin with a closing bracket. -/
theorem not_stops_simple {s : Symbol} {a : Action} (hs : Statement s a) (code : List Symbol) :
    ¬ Stops (s :: code) :=
  fun h => hs.ne_loopEnd (h s rfl)

theorem not_stops_loop (code : List Symbol) : ¬ Stops (.loopStart :: code) :=
  fun h => nomatch h .loopStart rfl

/-- **A code ends where it has to, and has one tree.** If a row of commands
is a code with something behind it in two ways, then the trees are the same
and so is what stands behind them. -/
theorem tree_eq_of_append_eq {code : List Symbol} {tree : Program} (h : Derives code tree) :
    ∀ {code' rest rest' : List Symbol} {tree' : Program}, Derives code' tree' → Stops rest →
      Stops rest' → code ++ rest = code' ++ rest' → tree = tree' ∧ rest = rest' := by
  -- The first derivation is followed; the second has to begin like it.
  induction h with
  | nil =>
    intro code' rest rest' tree' h' hrest _ heq
    rw [List.nil_append] at heq
    subst heq
    cases h' with
    | nil => exact ⟨rfl, rfl⟩
    | simple hs _ => exact (not_stops_simple hs _ hrest).elim
    | loop _ _ => exact (not_stops_loop _ hrest).elim
  | @simple s a code tree hs _ ih =>
    intro code' rest rest' tree' h' hrest hrest' heq
    cases h' with
    | nil =>
      rw [List.nil_append, List.cons_append] at heq
      subst heq
      exact (not_stops_simple hs _ hrest').elim
    | simple hs' h' =>
      simp only [List.cons_append, List.cons.injEq] at heq
      obtain ⟨rfl, heq⟩ := heq
      obtain ⟨rfl, hr⟩ := ih h' hrest hrest' heq
      exact ⟨by rw [hs.action_eq hs'], hr⟩
    | loop _ _ =>
      simp only [List.cons_append, List.cons.injEq] at heq
      exact (hs.ne_loopStart heq.1).elim
  | @loop inside code body tree _ _ ihb ih =>
    intro code' rest rest' tree' h' hrest hrest' heq
    cases h' with
    | nil =>
      rw [List.nil_append] at heq
      subst heq
      exact (not_stops_loop _ hrest').elim
    | simple hs' _ =>
      simp only [List.cons_append, List.cons.injEq] at heq
      exact (hs'.ne_loopStart heq.1.symm).elim
    | loop hb' h' =>
      simp only [List.append_assoc, List.cons_append, List.cons.injEq, true_and] at heq
      -- The bodies end at their closing brackets, so what is behind those agrees too.
      obtain ⟨rfl, heq⟩ := ihb hb' (stops_loopEnd _) (stops_loopEnd _) heq
      obtain ⟨rfl, hr⟩ := ih h' hrest hrest' (List.cons.inj heq).2
      exact ⟨rfl, hr⟩

/-- A code has one tree. -/
theorem tree_eq {code : List Symbol} {tree tree' : Program} (h : Derives code tree)
    (h' : Derives code tree') : tree = tree' :=
  (h.tree_eq_of_append_eq h' stops_nil stops_nil rfl).1

end Derives

end Brainfuck
