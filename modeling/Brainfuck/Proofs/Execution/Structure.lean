import Brainfuck.Proofs.Execution.Moves
/-!
# The frames of a run are its loops

A run keeps the loops it is inside of as frames; `Exec` has none. In front
of any frames a task comes to what `Exec` says of it (`Exec.arrives`), and
a run in the middle of anything comes to what is left of its body followed
by what is left of each loop around it (`Config.Settles`), which every
move preserves backwards. With no frames around, the two say the same of
runs and of `Exec`: `ends_start_iff_exec`.
-/

namespace Brainfuck

variable {σ ε : Type} {policies : Policies} {device : Device (StateM σ) ε}

theorem Frame.resume_of_isNonzero {f : Frame} {loops : List Frame} {machine : Machine}
    (h : machine.tape.isNonzero = true) :
    f.resume loops machine = ⟨f.body, f :: loops, machine⟩ := by
  rw [Frame.resume, if_pos h]

theorem Frame.resume_of_not_isNonzero {f : Frame} {loops : List Frame} {machine : Machine}
    (h : machine.tape.isNonzero = false) :
    f.resume loops machine = ⟨f.after, loops, machine⟩ := by
  rw [Frame.resume, if_neg (by simp [h])]

/-! ## From structure to moves -/

/-- The configuration in which a task starts inside of loops. -/
def Task.config (loops : List Frame) (machine : Machine) : Task → Config
  | .program p => ⟨p, loops, machine⟩
  | .test body after => Frame.resume ⟨body, after⟩ loops machine

/-- What a task inside of loops gets to: if it finishes, the end of the
body it is in; if it fails, the end of the run. -/
def Arrives (policies : Policies) (device : Device (StateM σ) ε) (c : Config) (s : σ)
    (loops : List Frame) : Outcome ε → σ → Prop
  | .finished next, t => ∃ n, Moves policies device n c s ⟨.nil, loops, next⟩ t
  | .failed f next, t => Ends policies device c s (.failed f next) t

theorem Arrives.of_moves {n : Nat} {c c' : Config} {s s' t : σ} {loops : List Frame}
    {outcome : Outcome ε} (hm : Moves policies device n c s c' s')
    (h : Arrives policies device c' s' loops outcome t) :
    Arrives policies device c s loops outcome t := by
  cases outcome with
  | finished next =>
    obtain ⟨k, hk⟩ := h
    exact ⟨n + k, hm.trans hk⟩
  | failed f next => exact hm.ends h

/-- **The frames around a task do not matter to it.** -/
theorem Exec.arrives {task : Task} {machine : Machine} {s t : σ} {outcome : Outcome ε}
    (h : Exec policies device task machine s outcome t) (loops : List Frame) :
    Arrives policies device (task.config loops machine) s loops outcome t := by
  induction h generalizing loops with
  | done => exact ⟨0, .refl _ _⟩
  | act hp _ ih => exact .of_moves (.single (step_act hp)) (ih loops)
  | actFailed hp => exact ⟨1, runFor_act_failed hp⟩
  | loop _ ih => exact .of_moves (.single (step_loop ..)) (ih loops)
  | leave hz _ ih =>
    rw [Task.config, Frame.resume_of_not_isNonzero hz]
    exact ih loops
  | @round body after machine next s u t outcome hn _ _ ihBody ihAgain =>
    rw [Task.config, Frame.resume_of_isNonzero hn]
    -- the body runs in front of the loop's own frame, whose move is the next test
    obtain ⟨n, hm⟩ := ihBody (⟨body, after⟩ :: loops)
    exact .of_moves (hm.trans (.single (step_frame ..))) (ihAgain loops)
  | @roundFailed body after machine next s t f hn _ ih =>
    rw [Task.config, Frame.resume_of_isNonzero hn]
    exact ih (⟨body, after⟩ :: loops)

/-- What a program comes to by its structure, its run ends with. -/
theorem Exec.ends {p : Program} {machine : Machine} {s t : σ} {outcome : Outcome ε}
    (h : Exec policies device (.program p) machine s outcome t) :
    Ends policies device (.start p machine) s outcome t := by
  have ha := h.arrives []
  cases outcome with
  | finished next =>
    obtain ⟨n, hm⟩ := ha
    exact hm.ends ⟨1, runFor_done 0 next t⟩
  | failed f next => exact ha

/-! ## From moves to structure -/

/-- First one thing and then another, unless the first fails. -/
def Then (first second : Machine → σ → Outcome ε → σ → Prop) (machine : Machine) (s : σ)
    (outcome : Outcome ε) (t : σ) : Prop :=
  (∃ next u, first machine s (.finished next) u ∧ second next u outcome t) ∨
    ∃ f next, outcome = .failed f next ∧ first machine s outcome t

theorem Then.imp_first {first first' second : Machine → σ → Outcome ε → σ → Prop}
    {machine machine' : Machine} {s s' t : σ} {outcome : Outcome ε}
    (h : Then first second machine s outcome t)
    (himp : ∀ o u, first machine s o u → first' machine' s' o u) :
    Then first' second machine' s' outcome t := by
  rcases h with ⟨next, u, h₁, h₂⟩ | ⟨f, next, ho, h₁⟩
  · exact Or.inl ⟨next, u, himp _ _ h₁, h₂⟩
  · exact Or.inr ⟨f, next, ho, himp _ _ h₁⟩

/-- What is left of the loops around the end of a body, innermost first:
for each of them another test and what comes after. -/
def Unwinds (policies : Policies) (device : Device (StateM σ) ε) :
    List Frame → Machine → σ → Outcome ε → σ → Prop
  | [] => fun machine s outcome t => outcome = .finished machine ∧ t = s
  | f :: loops =>
    Then (Exec policies device (.test f.body f.after)) (Unwinds policies device loops)

/-- What a configuration comes to by its structure: the instructions that
come next, and then what is left of the loops around them. -/
def Config.Settles (policies : Policies) (device : Device (StateM σ) ε) (c : Config) (s : σ)
    (outcome : Outcome ε) (t : σ) : Prop :=
  Then (Exec policies device (.program c.pending)) (Unwinds policies device c.loops) c.machine s
    outcome t

/-- A test comes to what its two branches come to. -/
theorem then_test_of_resume {f : Frame} {loops : List Frame} {machine : Machine} {s t : σ}
    {outcome : Outcome ε}
    (h : (f.resume loops machine).Settles policies device s outcome t) :
    Then (Exec policies device (.test f.body f.after)) (Unwinds policies device loops) machine s
      outcome t := by
  cases hn : machine.tape.isNonzero with
  | false =>
    rw [Frame.resume_of_not_isNonzero hn] at h
    exact h.imp_first fun _ _ => .leave hn
  | true =>
    rw [Frame.resume_of_isNonzero hn] at h
    rcases h with ⟨next, u, hbody, hagain⟩ | ⟨fl, next, rfl, hbody⟩
    · exact Then.imp_first hagain fun _ _ => .round hn hbody
    · exact Or.inr ⟨fl, next, rfl, .roundFailed hn hbody⟩

/-- **A move preserves backwards what a configuration comes to.** -/
theorem settles_of_step {c c' : Config} {s s' t : σ} {outcome : Outcome ε}
    (hs : Config.step policies device c s = (.next c', s'))
    (h : c'.Settles policies device s' outcome t) : c.Settles policies device s outcome t := by
  rcases step_cases hs with ⟨f, loops, machine, rfl, rfl, rfl⟩ |
    ⟨body, after, loops, machine, rfl, rfl, rfl⟩ | ⟨a, rest, loops, machine, next, rfl, hp, rfl⟩
  · exact Or.inl ⟨machine, _, .done, then_test_of_resume h⟩
  · exact (then_test_of_resume h).imp_first fun _ _ => .loop
  · exact h.imp_first fun _ _ => .act hp

theorem settles_of_step_ended {c : Config} {s t : σ} {outcome : Outcome ε}
    (hs : Config.step policies device c s = (.ended outcome, t)) :
    c.Settles policies device s outcome t := by
  rcases step_ended_cases hs with ⟨machine, rfl, rfl, rfl⟩ |
    ⟨a, rest, loops, machine, f, next, rfl, hp, rfl⟩
  · exact Or.inl ⟨machine, _, .done, rfl, rfl⟩
  · exact Or.inr ⟨f, next, rfl, .actFailed hp⟩

/-- What a run ends with, its configuration comes to by its structure. -/
theorem settles_of_ends {c : Config} {s t : σ} {outcome : Outcome ε}
    (h : Ends policies device c s outcome t) : c.Settles policies device s outcome t := by
  obtain ⟨n, c', s', hm, he⟩ := ends_iff.1 h
  -- from the last move, of which it is known, back to the first
  induction hm with
  | refl => exact settles_of_step_ended he
  | head hs hm ih => exact settles_of_step hs (ih (ends_iff.2 ⟨_, _, _, hm, he⟩) he)

/-- What a run ends with, its program comes to by its structure. -/
theorem Ends.exec {p : Program} {machine : Machine} {s t : σ} {outcome : Outcome ε}
    (h : Ends policies device (.start p machine) s outcome t) :
    Exec policies device (.program p) machine s outcome t := by
  rcases settles_of_ends h with ⟨next, u, hp, ho, ht⟩ | ⟨f, next, -, hp⟩
  · cases ho
    cases ht
    exact hp
  · exact hp

/-! ## The two agree -/

/-- **A run ends exactly as the structure of its program says**, with the
same machine, number of instructions, failure and device. -/
theorem ends_start_iff_exec {p : Program} {machine : Machine} {s t : σ} {outcome : Outcome ε} :
    Ends policies device (.start p machine) s outcome t ↔
      Exec policies device (.program p) machine s outcome t :=
  ⟨Ends.exec, Exec.ends⟩

end Brainfuck
