import Brainfuck.Proofs.Execution.Structure
/-!
# Programs by their parts

What a program comes to is put together from what its parts come to, by
`Then`: first the one and, unless it fails, the other. `exec_act`,
`exec_loop` and `exec_test_of_isNonzero` say so of an action, a loop and a
round of it. `Then` is associative (`Then.assoc`), so what comes behind a
loop can be taken from it (`exec_test`), and two programs in a row are the
one and then the other: `exec_append`.
-/

namespace Brainfuck

variable {σ ε : Type} {policies : Policies} {device : Device (StateM σ) ε}

/-! ## One thing after another -/

namespace Then

variable {first second third : Machine → σ → Outcome ε → σ → Prop}

/-- **Putting things in a row is associative.** -/
theorem assoc : Then (Then first second) third = Then first (Then second third) := by
  funext machine s outcome t
  refine propext ⟨?_, ?_⟩
  · rintro (⟨next, u, ⟨mid, v, h₁, h₂⟩ | ⟨f, mid, ho, -⟩, h₃⟩ | ⟨f, next, rfl, h⟩)
    · exact Or.inl ⟨mid, v, h₁, Or.inl ⟨next, u, h₂, h₃⟩⟩
    · cases ho
    · rcases h with ⟨mid, v, h₁, h₂⟩ | ⟨-, -, -, h₁⟩
      · exact Or.inl ⟨mid, v, h₁, Or.inr ⟨f, next, rfl, h₂⟩⟩
      · exact Or.inr ⟨f, next, rfl, h₁⟩
  · rintro (⟨mid, v, h₁, ⟨next, u, h₂, h₃⟩ | ⟨f, next, rfl, h₂⟩⟩ | ⟨f, next, rfl, h₁⟩)
    · exact Or.inl ⟨next, u, Or.inl ⟨mid, v, h₁, h₂⟩, h₃⟩
    · exact Or.inr ⟨f, next, rfl, Or.inl ⟨mid, v, h₁, h₂⟩⟩
    · exact Or.inr ⟨f, next, rfl, Or.inr ⟨f, next, rfl, h₁⟩⟩

end Then

/-! ## Programs by their parts -/

/-- What performing an action comes to. -/
def Performs (policies : Policies) (device : Device (StateM σ) ε) (a : Action) :
    Machine → σ → Outcome ε → σ → Prop :=
  fun machine s outcome t => device.perform policies a machine s = (outcome, t)

/-- Nothing behind something adds nothing to it. -/
theorem then_exec_nil (first : Machine → σ → Outcome ε → σ → Prop) :
    Then first (Exec policies device (.program .nil)) = first := by
  funext machine s outcome t
  refine propext ⟨?_, fun h => ?_⟩
  · rintro (⟨next, u, h, hnil⟩ | ⟨f, next, -, h⟩)
    · cases hnil
      exact h
    · exact h
  · cases outcome with
    | finished next => exact Or.inl ⟨next, t, h, .done⟩
    | failed f next => exact Or.inr ⟨f, next, rfl, h⟩

/-- Nothing in front of something adds nothing to it. -/
theorem exec_nil_then (second : Machine → σ → Outcome ε → σ → Prop) :
    Then (Exec policies device (.program .nil)) second = second := by
  funext machine s outcome t
  refine propext ⟨?_, fun h => Or.inl ⟨machine, s, .done, h⟩⟩
  rintro (⟨next, u, hnil, h⟩ | ⟨f, next, rfl, hnil⟩)
  · cases hnil
    exact h
  · cases hnil

theorem exec_act (a : Action) (r : Program) :
    Exec policies device (.program (.act a r)) =
      Then (Performs policies device a) (Exec policies device (.program r)) := by
  funext machine s outcome t
  refine propext ⟨fun h => ?_, ?_⟩
  · cases h with
    | act hp hr => exact Or.inl ⟨_, _, hp, hr⟩
    | actFailed hp => exact Or.inr ⟨_, _, rfl, hp⟩
  · rintro (⟨next, u, hp, hr⟩ | ⟨f, next, rfl, hp⟩)
    · exact .act hp hr
    · exact .actFailed hp

theorem exec_loop (b r : Program) :
    Exec policies device (.program (.loop b r)) =
      fun machine => Exec policies device (.test b r) machine.tick := by
  funext machine s outcome t
  refine propext ⟨fun h => ?_, .loop⟩
  cases h with
  | loop htest => exact htest

/-- A loop at its test, where the current cell is not zero, is its body and
then the loop at its test. -/
theorem exec_test_of_isNonzero {machine : Machine} (h : machine.tape.isNonzero = true)
    (b r : Program) :
    Exec policies device (.test b r) machine =
      Then (Exec policies device (.program b)) (Exec policies device (.test b r)) machine := by
  funext s outcome t
  refine propext ⟨fun he => ?_, ?_⟩
  · cases he with
    | leave hz _ => simp [h] at hz
    | round _ hbody hagain => exact Or.inl ⟨_, _, hbody, hagain⟩
    | roundFailed _ hbody => exact Or.inr ⟨_, _, rfl, hbody⟩
  · rintro (⟨next, u, hbody, hagain⟩ | ⟨f, next, rfl, hbody⟩)
    · exact .round h hbody hagain
    · exact .roundFailed h hbody

/-- Whatever a loop with nothing behind it comes to, something can be put
behind it: it runs if the loop has finished. -/
theorem Exec.test_continue {b r : Program} {machine : Machine} {s u : σ} {o : Outcome ε}
    (h : Exec policies device (.test b .nil) machine s o u) {outcome : Outcome ε} {t : σ}
    (hr : (∃ next, o = .finished next ∧ Exec policies device (.program r) next u outcome t) ∨
      ∃ f next, o = .failed f next ∧ outcome = o ∧ t = u) :
    Exec policies device (.test b r) machine s outcome t := by
  generalize htask : Task.test b .nil = task at h
  induction h with
  | done | act | actFailed | loop => cases htask
  | leave hz hnil =>
    cases htask
    cases hnil
    rcases hr with ⟨next, ho, hr⟩ | ⟨f, next, ho, -, -⟩
    · cases ho
      exact .leave hz hr
    · cases ho
  | round hn hbody _ _ ih =>
    cases htask
    exact .round hn hbody (ih hr rfl)
  | roundFailed hn hbody =>
    cases htask
    rcases hr with ⟨next, ho, -⟩ | ⟨f, next, -, rfl, rfl⟩
    · cases ho
    · exact .roundFailed hn hbody

/-- **What comes after a loop runs when the loop is over.** The induction is
over the rounds. -/
theorem exec_test (b r : Program) :
    Exec policies device (.test b r) =
      Then (Exec policies device (.test b .nil)) (Exec policies device (.program r)) := by
  funext machine s outcome t
  refine propext ⟨fun h => ?_, ?_⟩
  · generalize htask : Task.test b r = task at h
    induction h with
    | done | act | actFailed | loop => cases htask
    | leave hz hafter =>
      cases htask
      exact Or.inl ⟨_, _, .leave hz .done, hafter⟩
    | round hn hbody _ _ ih =>
      cases htask
      exact (ih rfl).imp_first fun _ _ hagain => .round hn hbody hagain
    | roundFailed hn hbody =>
      cases htask
      exact Or.inr ⟨_, _, rfl, .roundFailed hn hbody⟩
  · rintro (⟨next, u, hloop, hr⟩ | ⟨f, next, rfl, hloop⟩)
    · exact hloop.test_continue (Or.inl ⟨next, rfl, hr⟩)
    · exact hloop.test_continue (Or.inr ⟨f, next, rfl, rfl, rfl⟩)

/-- **Two programs in a row run one after the other.** The induction is on
the first; the rounds of its loops are those of `exec_test`. -/
theorem exec_append (p q : Program) :
    Exec policies device (.program (p ++ q)) =
      Then (Exec policies device (.program p)) (Exec policies device (.program q)) := by
  induction p with
  | nil => rw [Program.nil_append, exec_nil_then]
  | act a r ih => rw [Program.act_append, exec_act, ih, ← Then.assoc, ← exec_act]
  | loop b r _ ih =>
    rw [Program.loop_append, exec_loop, exec_loop, exec_test, ih, ← Then.assoc, ← exec_test]
    rfl

/-- A program is its first instruction and then the rest. -/
theorem exec_cons (i : Instruction) (r : Program) :
    Exec policies device (.program (.cons i r)) =
      Then (Exec policies device (.program (.cons i .nil)))
        (Exec policies device (.program r)) := by
  have happend : Program.cons i .nil ++ r = .cons i r := by
    cases i <;> rfl
  rw [← happend, exec_append]

end Brainfuck
