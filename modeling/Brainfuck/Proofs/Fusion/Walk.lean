import Brainfuck.Proofs.Fusion.Runs
/-!
# A pass without recursion

A walk over a program keeps the bodies that it is in on a stack. What all of
them will have come to at the end can be told at any time (`Walk.answer`): what
the body under way has written, and then what a pass makes of the rest of it,
is what the loop around it is made of, and so on outwards. A step changes
nothing about the answer and leaves less to visit (`step_cases`), so the walk
ends, and with that answer: `runFor_eq`.

With what a pass does to whole runs this makes three descriptions of a pass
the same: `walk_eq_fused`.
-/

namespace Brainfuck

variable {policies : Policies}

namespace Program

theorem ofList_append (l l' : List Instruction) : ofList (l ++ l') = ofList l ++ ofList l' := by
  induction l with
  | nil => rfl
  | cons i l ih =>
    rw [List.cons_append, ofList_cons, ih, ofList_cons]
    cases i <;> rfl

theorem ofList_map_act (as : List Action) : ofList (as.map .act) = acts as nil := by
  induction as with
  | nil => rfl
  | cons a as ih => rw [List.map_cons, ofList_cons, ih, acts_cons, cons]

/-! ## The longest run at the beginning -/

section

variable {α : Type} {amount? : Action → Option α} {mk : α → Action}

theorem span_act_some {a : Action} {x : α} (h : amount? a = some x) (r : Program) :
    (act a r).span amount? = (x :: (r.span amount?).1, (r.span amount?).2) := by
  simp only [span, h]

theorem span_act_none {a : Action} (h : amount? a = none) (r : Program) :
    (act a r).span amount? = ([], act a r) := by
  simp only [span, h]

/-- A run and what comes after it are the program. -/
theorem acts_span (hmk : ∀ a x, amount? a = some x → a = mk x) (p : Program) :
    acts ((p.span amount?).1.map mk) (p.span amount?).2 = p := by
  induction p with
  | nil | loop => rfl
  | act a r ih =>
    cases ha : amount? a with
    | none =>
      rw [span_act_none ha]
      rfl
    | some x => rw [span_act_some ha, List.map_cons, acts_cons, ih, ← hmk a x ha]

/-- The run could not be longer. -/
theorem amount?_of_mem_firstAction?_span (p : Program) :
    ∀ b ∈ (p.span amount?).2.firstAction?, amount? b = none := by
  induction p with
  | nil | loop =>
    intro b hb
    cases hb
  | act a r ih =>
    cases ha : amount? a with
    | none =>
      rw [span_act_none ha]
      intro b hb
      cases hb
      exact ha
    | some x =>
      rw [span_act_some ha]
      exact ih

/-- Where a pass replaces the runs of a kind, it replaces the one that a
program begins with. -/
theorem pass_act_span {fuse : List α → List α} (hmk : ∀ a x, amount? a = some x → a = mk x)
    (hpass : ∀ q : Program, (∀ b ∈ q.firstAction?, amount? b = none) → ∀ run : List α,
      (acts (run.map mk) q).pass policies = acts ((fuse run).map mk) (q.pass policies))
    (x : α) (r : Program) :
    (act (mk x) r).pass policies =
      acts ((fuse (x :: (r.span amount?).1)).map mk) ((r.span amount?).2.pass policies) := by
  rw [← hpass _ (amount?_of_mem_firstAction?_span r), List.map_cons, acts_cons, acts_span hmk]

theorem pass_act_move (n : Int) (r : Program) :
    (act (.move n) r).pass policies =
      acts ((fuseShifts policies.tape (n :: (r.span Action.shift?).1)).map .move)
        ((r.span Action.shift?).2.pass policies) := by
  refine pass_act_span (fun a x h => ?_) (fun _ => pass_moves) n r
  cases a with
  | move => exact congrArg Action.move (Option.some.inj h)
  | add | output | input => cases h

theorem pass_act_add (d : UInt8) (r : Program) :
    (act (.add d) r).pass policies =
      acts ((fuseDeltas policies.cell (d :: (r.span Action.delta?).1)).map .add)
        ((r.span Action.delta?).2.pass policies) := by
  refine pass_act_span (fun a x h => ?_) (fun _ => pass_adds) d r
  cases a with
  | add => exact congrArg Action.add (Option.some.inj h)
  | move | output | input => cases h

theorem weight_span_le (p : Program) : (p.span amount?).2.weight ≤ p.weight := by
  induction p with
  | nil | loop => exact Nat.le_refl _
  | act a r ih =>
    cases ha : amount? a with
    | none => exact Nat.le_of_eq (congrArg (·.2.weight) (span_act_none ha r))
    | some x =>
      rw [span_act_some ha]
      exact Nat.le_succ_of_le ih

end

end Program

/-! ## What a walk comes to -/

namespace Scan

/-- The program that a body has come to so far. -/
def written (s : Scan) : Program := .ofList s.out.reverse

theorem written_write (as : List Action) (s : Scan) :
    (s.write as).written = s.written ++ .acts as .nil := by
  rw [written, write, List.reverse_append, List.reverse_reverse, Program.ofList_append,
    Program.ofList_map_act, written]

/-- What a body has come to is delivered as a loop, and as nothing if it is
nothing. -/
theorem written_deliver (body : List Instruction) (s : Scan) :
    (s.deliver body).written = s.written ++ .keepLoop (.ofList body.reverse) .nil := by
  cases body with
  | nil => exact (Program.append_nil _).symm
  | cons i body =>
    have hne : Program.ofList (i :: body).reverse ≠ .nil := by
      intro h
      have hlist := congrArg Program.toList h
      rw [Program.toList_ofList] at hlist
      exact List.cons_ne_nil i body (List.reverse_eq_nil_iff.1 hlist)
    have hdeliver : s.deliver (i :: body) =
        { s with out := .loop (.ofList (i :: body).reverse) :: s.out } := rfl
    rw [Program.keepLoop_of_ne_nil hne, hdeliver, written, List.reverse_cons,
      Program.ofList_append]
    rfl

/-- What a body comes to: what has been written, and what a pass makes of the
rest. -/
def answer (policies : Policies) (s : Scan) : Program := s.written ++ s.rest.pass policies

/-- What the body around a loop comes to, if that of the loop comes to
`body`. -/
def answerAround (policies : Policies) (body : Program) (s : Scan) : Program :=
  s.written ++ .keepLoop body (s.rest.pass policies)

/-- A run that is written is one that a pass has fused. -/
theorem answer_write {as : List Action} {p rest : Program} (out : List Instruction)
    (h : p.pass policies = .acts as (rest.pass policies)) :
    (Scan.write as ⟨rest, out⟩).answer policies = answer policies ⟨p, out⟩ := by
  rw [answer, written_write, Program.append_assoc, Program.acts_nil_append, answer, h]
  rfl

theorem rest_deliver (body : List Instruction) (s : Scan) : (s.deliver body).rest = s.rest := by
  rw [deliver]
  split <;> rfl

theorem answer_deliver (out : List Instruction) (s : Scan) :
    (s.deliver out).answer policies = s.answerAround policies (.ofList out.reverse) := by
  rw [answer, written_deliver, rest_deliver, Program.append_assoc, Program.keepLoop_append]
  rfl

end Scan

namespace Walk

/-- What a walk comes to: the body under way, and the loops around it outwards. -/
def answer (policies : Policies) (w : Walk) : Program :=
  w.outer.foldl (Scan.answerAround policies) (w.current.answer policies)

/-- What is left to visit. -/
def weight (w : Walk) : Nat := w.current.rest.weight + Program.totalWeight (w.outer.map Scan.rest)

variable {a : Action} {r rest : Program} {as : List Action} {out : List Instruction}
variable {outer : List Scan}

/-- An action at least has been visited where a walk has written something. -/
theorem weight_write_lt (h : rest.weight ≤ r.weight) :
    (Walk.mk (Scan.write as ⟨rest, out⟩) outer).weight <
      (Walk.mk ⟨.act a r, out⟩ outer).weight := by
  simp only [weight, Scan.write, Program.weight]
  omega

/-- What is written is what a pass makes of what has been visited. -/
theorem answer_write (h : (Program.act a r).pass policies = .acts as (rest.pass policies)) :
    (Walk.mk (Scan.write as ⟨rest, out⟩) outer).answer policies =
      (Walk.mk ⟨.act a r, out⟩ outer).answer policies := by
  rw [answer, answer, Scan.answer_write out h]

/-- **A step leaves less to visit and changes nothing about the answer**, and
the last step gives it. -/
theorem step_cases (policies : Policies) (w : Walk) :
    w.step policies = .done (w.answer policies) ∨
      ∃ w', w.step policies = .next w' ∧ w'.weight < w.weight ∧
        w'.answer policies = w.answer policies := by
  obtain ⟨⟨rest, out⟩, outer⟩ := w
  cases rest with
  | nil =>
    have hend : Scan.answer policies ⟨.nil, out⟩ = .ofList out.reverse := Program.append_nil _
    cases outer with
    | nil => exact Or.inl (congrArg Step.done hend.symm)
    | cons s outer =>
      refine Or.inr ⟨_, rfl, ?_, ?_⟩
      · rw [weight, weight, Scan.rest_deliver]
        exact Nat.lt_add_of_pos_left Nat.zero_lt_one
      · rw [answer, Scan.answer_deliver, answer, List.foldl_cons, hend]
  | loop b r =>
    refine Or.inr ⟨_, rfl, ?_, rfl⟩
    simp only [weight, List.map_cons, Program.totalWeight, Program.weight]
    omega
  | act a r =>
    cases a with
    | move n =>
      exact Or.inr ⟨_, rfl, weight_write_lt (Program.weight_span_le r),
        answer_write (Program.pass_act_move n r)⟩
    | add d =>
      exact Or.inr ⟨_, rfl, weight_write_lt (Program.weight_span_le r),
        answer_write (Program.pass_act_add d r)⟩
    | output | input =>
      exact Or.inr ⟨_, rfl, weight_write_lt (Nat.le_refl _),
        answer_write (Program.fuseFrom_of_not_isSilent rfl r)⟩

theorem weight_pos (w : Walk) : 0 < w.weight :=
  Nat.lt_of_lt_of_le w.current.rest.weight_pos (Nat.le_add_right _ _)

/-- **The walk ends with its answer**, after no more steps than there is left
to visit. -/
theorem runFor_eq (fuel : Nat) : ∀ w : Walk, w.weight ≤ fuel →
    w.runFor policies fuel = some (w.answer policies) := by
  induction fuel with
  | zero =>
    intro w h
    exact absurd h (Nat.not_le_of_lt w.weight_pos)
  | succ fuel ih =>
    intro w h
    rcases w.step_cases policies with hdone | ⟨w', hnext, hlt, hanswer⟩
    · simp only [runFor, hdone]
    · simp only [runFor, hnext]
      rw [ih w' (by omega), hanswer]

end Walk

/-- **The walk over a program is the pass, and both are its recursive
definition.** Every program is split, in every body, into longest runs of
moves, longest runs of adds and single other instructions, and this in one way.
Whatever the policies, the walk ends after no more steps than the program has
instructions and ends of bodies, with every run replaced by what it is fused
into, every output and input kept, and every loop replaced by a loop around
what comes of its body in this manner, or by nothing if that is nothing. The
pass comes to the same. The runs are those of the program as it was found, so
what becomes neighbours is not fused. -/
theorem Program.walk_eq_fused (policies : Policies) (p : Program) :
    ∃ g : Grouped, (∀ g' : Grouped, g' = g ↔ g'.program = p ∧ g'.IsMaximal) ∧
      (Walk.start p).runFor policies p.weight = some (g.fused policies) ∧
      p.pass policies = g.fused policies := by
  have hpass : p.pass policies = p.grouped.fused policies := pass_eq_fused policies p
  have hanswer : (Walk.start p).answer policies = p.pass policies := nil_append _
  refine ⟨p.grouped, fun _ => eq_grouped_iff, ?_, hpass⟩
  rw [Walk.runFor_eq p.weight (Walk.start p) (Nat.le_refl _), hanswer, hpass]

/-- The moves around adds that cancel come to stand side by side, and are not
fused by the same pass. -/
example :
    (Program.act (.move 1) (.act (.add 1) (.act (.add 255) (.act (.move 1) .nil)))).pass
      ⟨.wrap, .wrap⟩ = .act (.move 1) (.act (.move 1) .nil) := rfl

end Brainfuck
