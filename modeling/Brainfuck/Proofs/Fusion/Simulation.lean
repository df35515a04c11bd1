import Brainfuck.Proofs.Execution.Moves
import Brainfuck.Proofs.Fusion.Pass
/-!
# The run of a fused program follows the run of the program

`Trails assumed actual c d` relates a configuration `c` of a program to a
configuration `d` of what a pass makes of it. The run of the fused program
lags behind by one silent action, the one that the run of actions so far
has been fused into. Frames correspond one to one, except that a loop the
pass leaves out has none on the fused side: there the fused program waits
at what comes after it (`Below`).

`Trails.step` is the step lemma: a move on the one side is matched by moves
on the other, and where there are none the instructions that come next
have become fewer, unless the run is inside a loop that was left out.
`Trails.ends` and `Trails.moves` carry it to whole runs.
-/

namespace Brainfuck

open Program

variable {σ ε : Type} {device : Device (StateM σ) ε}
variable {assumed actual : Policies}

/-! ## The relation -/

/-- What the fused program has left below the current body: the rest behind
the loops that are left out, up to the next frame, and the frames. -/
inductive Below (assumed : Policies) : List Frame → Program → List Frame → Prop where
  | bottom : Below assumed [] .nil []
  | kept {f : Frame} {loops loops' : List Frame} {q : Program} :
      f.body.pass assumed ≠ .nil → Below assumed loops q loops' →
      Below assumed (f :: loops) .nil
        (⟨f.body.pass assumed, f.after.pass assumed ++ q⟩ :: loops')
  | dropped {f : Frame} {loops loops' : List Frame} {q : Program} :
      f.body.pass assumed = .nil → Below assumed loops q loops' →
      Below assumed (f :: loops) (f.after.pass assumed ++ q) loops'

/-- The number of instructions that an action is kept as. -/
def Action.cost (a : Action) : Nat := if a.isIdle then 0 else 1

theorem Action.cost_le (a : Action) : a.cost ≤ 1 := by
  unfold Action.cost
  split <;> omega

/-- The second configuration is that of the fused program, behind by one
silent action and no more instructions. -/
inductive Trails (assumed actual : Policies) : Config → Config → Prop where
  | intro {a : Action} {p q : Program} {loops loops' : List Frame} {slow fast : Machine} :
      a.isSilent = true → Below assumed loops q loops' →
      slow.tape = a.tapeAfter actual fast.tape → fast.steps + a.cost ≤ slow.steps →
      Trails assumed actual ⟨p, loops, slow⟩ ⟨p.fuseFrom assumed a ++ q, loops', fast⟩

/-- The configuration is inside a loop that a pass leaves out. -/
def Config.InDropped (assumed : Policies) (c : Config) : Prop :=
  ∃ f ∈ c.loops, f.body.pass assumed = .nil

/-- Where nothing is behind, the fused program is at the pass of what comes
next. -/
theorem Trails.of_within {p q : Program} {loops loops' : List Frame} {slow fast : Machine}
    (hb : Below assumed loops q loops') (hw : fast.Within slow) :
    Trails assumed actual ⟨p, loops, slow⟩ ⟨p.pass assumed ++ q, loops', fast⟩ := by
  refine .intro (a := .move 0) rfl hb ?_ hw.2
  rw [Action.tapeAfter_of_isIdle rfl]
  exact hw.1.symm

theorem Trails.start (p : Program) (machine : Machine) :
    Trails assumed actual (.start p machine) (.start (p.pass assumed) machine) := by
  have h : Trails assumed actual ⟨p, [], machine⟩ ⟨p.pass assumed ++ .nil, [], machine⟩ :=
    .of_within .bottom ⟨rfl, Nat.le_refl _⟩
  rwa [append_nil] at h

/-! ## Catching up -/

/-- **The fused program catches up** by performing the action it is behind
by, if it is kept at all. -/
theorem moves_keep (device : Device (StateM σ) ε) {a : Action} (ha : a.isSilent = true)
    (p : Program) (loops : List Frame) {slow fast : Machine} (s : σ)
    (ht : slow.tape = a.tapeAfter actual fast.tape)
    (hs : fast.steps + a.cost ≤ slow.steps) :
    ∃ fast' : Machine, fast'.Within slow ∧
      Moves actual device a.cost ⟨keep a p, loops, fast⟩ s ⟨p, loops, fast'⟩ s := by
  cases hi : a.isIdle with
  | true =>
    have hc : a.cost = 0 := by rw [Action.cost, if_pos hi]
    rw [Action.tapeAfter_of_isIdle hi] at ht
    rw [keep_of_isIdle hi, hc]
    exact ⟨fast, ⟨ht.symm, by omega⟩, .refl _ _⟩
  | false =>
    have hc : a.cost = 1 := by rw [Action.cost, if_neg (by simp [hi])]
    rw [keep_of_not_isIdle hi, hc]
    exact ⟨⟨a.tapeAfter actual fast.tape, fast.steps + 1⟩, ⟨ht.symm, by simpa [hc] using hs⟩,
      .single (step_act (perform_of_isSilent ha fast s))⟩

/-! ## The step lemma -/

section Step

variable {a : Action} {p q : Program} {loops loops' : List Frame} {slow fast : Machine} {s t : σ}

/-- A move of an action. The fused program does nothing yet if the action
is fused with those before it; otherwise it catches up, and goes on to the
action itself if that is output or input. -/
theorem trails_act (h : assumed.Admits actual) (ha : a.isSilent = true)
    (hb : Below assumed loops q loops') (ht : slow.tape = a.tapeAfter actual fast.tape)
    (hs : fast.steps + a.cost ≤ slow.steps) {b : Action} {r : Program} {next : Machine}
    (hp : device.perform actual b slow s = (.finished next, t)) :
    ∃ n d, Moves actual device n ⟨(Program.act b r).fuseFrom assumed a ++ q, loops', fast⟩ s d t ∧
      Trails assumed actual ⟨r, loops, next⟩ d := by
  cases hf : a.fuse? assumed b with
  | some c =>
    -- the fused program is now behind by the fused action instead
    obtain ⟨-, hbs, hcs⟩ := Action.isSilent_of_fuse? hf
    rw [perform_of_isSilent hbs] at hp
    cases hp
    have hc := c.cost_le
    refine ⟨0, _, .refl _ _, ?_⟩
    rw [fuseFrom_of_fuse? hf]
    refine .intro hcs hb ?_ (show fast.steps + c.cost ≤ slow.steps + 1 by omega)
    rw [ht]
    exact Action.tapeAfter_fuse? h hf fast.tape
  | none =>
    rw [fuseFrom_of_not_fuse? hf, keep_append]
    obtain ⟨fast', hw, hm⟩ := moves_keep device ha (r.fuseFrom assumed b ++ q) loops' s
      ht hs
    cases hbs : b.isSilent with
    | true =>
      -- having caught up, it is behind by this action alone
      rw [perform_of_isSilent hbs] at hp
      cases hp
      have hc := b.cost_le
      have hle := hw.2
      refine ⟨_, _, hm, .intro hbs hb ?_ (show fast'.steps + b.cost ≤ slow.steps + 1 by omega)⟩
      rw [hw.1]
    | false =>
      obtain ⟨outcome', hp', ho⟩ := perform_within hw hp
      rw [fuseFrom_of_not_isSilent hbs, act_append] at hm ⊢
      cases outcome' with
      | finished next' =>
        exact ⟨_, _, hm.trans (.single (step_act hp')), .of_within hb ho.2⟩
      | failed f next' => cases ho.1

/-- The test of a loop that is kept comes out alike on both sides. -/
theorem trails_resume_of_kept {f : Frame} (hk : f.body.pass assumed ≠ .nil)
    (hb : Below assumed loops q loops') (hw : fast.Within slow) :
    Trails assumed actual (f.resume loops slow)
      (Frame.resume ⟨f.body.pass assumed, f.after.pass assumed ++ q⟩ loops' fast) := by
  unfold Frame.resume
  rw [hw.1]
  split
  · have h : Trails assumed actual ⟨f.body, f :: loops, slow⟩ ⟨f.body.pass assumed ++ .nil, _, _⟩ :=
      .of_within (.kept hk hb) hw
    rwa [append_nil] at h
  · exact .of_within hb hw

/-- At the test of a loop that is left out the fused program is already at
what comes after it. -/
theorem trails_resume_of_dropped {f : Frame} (hd : f.body.pass assumed = .nil)
    (hb : Below assumed loops q loops') (hw : fast.Within slow) :
    Trails assumed actual (f.resume loops slow)
      ⟨f.after.pass assumed ++ q, loops', fast⟩ := by
  unfold Frame.resume
  split
  · have h : Trails assumed actual ⟨f.body, f :: loops, slow⟩ ⟨f.body.pass assumed ++ _, _, _⟩ :=
      .of_within (.dropped hd hb) hw
    rwa [hd, nil_append] at h
  · exact .of_within hb hw

/-- The move of a loop that is reached. -/
theorem trails_loop (ha : a.isSilent = true) (hb : Below assumed loops q loops')
    (ht : slow.tape = a.tapeAfter actual fast.tape) (hs : fast.steps + a.cost ≤ slow.steps)
    (body after : Program) (s : σ) :
    ∃ n d, Moves actual device n ⟨(Program.loop body after).fuseFrom assumed a ++ q, loops', fast⟩
        s d s ∧
      Trails assumed actual (Frame.resume ⟨body, after⟩ loops slow.tick) d ∧
      (n = 0 → body.pass assumed = .nil) := by
  rw [fuseFrom_loop, keep_append, keepLoop_append]
  obtain ⟨fast', hw, hm⟩ := moves_keep device ha
    (keepLoop (body.pass assumed) (after.pass assumed ++ q)) loops' s ht hs
  by_cases hd : body.pass assumed = .nil
  · rw [hd, keepLoop_nil] at hm ⊢
    refine ⟨_, _, hm, trails_resume_of_dropped (f := ⟨body, after⟩) hd hb ⟨hw.1, ?_⟩, fun _ => rfl⟩
    exact Nat.le_succ_of_le hw.2
  · rw [keepLoop_of_ne_nil hd] at hm ⊢
    refine ⟨_, _, hm.trans (.single (step_loop ..)),
      trails_resume_of_kept (f := ⟨body, after⟩) hd hb ⟨hw.1, Nat.succ_le_succ hw.2⟩, ?_⟩
    omega

/-- The move at the end of a loop's body. -/
theorem trails_frame {f : Frame} (ha : a.isSilent = true)
    (hb : Below assumed (f :: loops) q loops') (ht : slow.tape = a.tapeAfter actual fast.tape)
    (hs : fast.steps + a.cost ≤ slow.steps) (s : σ) :
    ∃ n d, Moves actual device n ⟨Program.nil.fuseFrom assumed a ++ q, loops', fast⟩ s d s ∧
      Trails assumed actual (f.resume loops slow) d ∧
      (n = 0 → f.body.pass assumed = .nil) := by
  rw [fuseFrom_nil, keep_append, nil_append]
  obtain ⟨fast', hw, hm⟩ := moves_keep device ha q loops' s ht hs
  cases hb with
  | kept hk hb =>
    exact ⟨_, _, hm.trans (.single (step_frame ..)), trails_resume_of_kept hk hb hw, by omega⟩
  | dropped hd hb => exact ⟨_, _, hm, trails_resume_of_dropped hd hb hw, fun _ => hd⟩

end Step

namespace Trails

variable {c c' d : Config} {s s' t : σ}

/-- **Every move is matched.** Where the fused program does not move, the
instructions that come next become fewer, unless the run is inside a loop
that is left out, before or after the move. -/
theorem step (h : assumed.Admits actual) (htr : Trails assumed actual c d)
    (hs : Config.step actual device c s = (.next c', s')) :
    ∃ n d', Moves actual device n d s d' s' ∧ Trails assumed actual c' d' ∧
      (n = 0 → c'.pending.size < c.pending.size ∨ c.InDropped assumed ∨ c'.InDropped assumed) := by
  obtain @⟨a, p, q, loops, loops', slow, fast, ha, hb, ht, hle⟩ := htr
  rcases step_cases hs with ⟨f, fs, machine, hc, rfl, rfl⟩ |
    ⟨body, after, fs, machine, hc, rfl, rfl⟩ | ⟨b, r, fs, machine, next, hc, hp, rfl⟩
  · cases hc
    obtain ⟨n, d', hm, htr, hn⟩ := trails_frame ha hb ht hle s'
    exact ⟨n, d', hm, htr, fun h0 => Or.inr (Or.inl ⟨f, List.mem_cons_self .., hn h0⟩)⟩
  · cases hc
    obtain ⟨n, d', hm, htr, hn⟩ := trails_loop ha hb ht hle body after s'
    refine ⟨n, d', hm, htr, fun h0 => ?_⟩
    unfold Frame.resume
    split
    · exact Or.inr (Or.inr ⟨⟨body, after⟩, List.mem_cons_self .., hn h0⟩)
    · refine Or.inl (show after.size < (Program.loop body after).size from ?_)
      rw [Program.size]
      omega
  · cases hc
    obtain ⟨n, d', hm, htr⟩ := trails_act h ha hb ht hle hp
    exact ⟨n, d', hm, htr, fun _ => Or.inl (Nat.lt_succ_self r.size)⟩

/-- **The last move is matched**: the fused program ends as well. -/
theorem step_ended (htr : Trails assumed actual c d) {outcome : Outcome ε}
    (hs : Config.step actual device c s = (.ended outcome, t)) :
    ∃ outcome', Ends actual device d s outcome' t ∧ outcome'.Within outcome := by
  obtain @⟨a, p, q, loops, loops', slow, fast, ha, hb, ht, hle⟩ := htr
  rcases step_ended_cases hs with ⟨machine, hc, rfl, rfl⟩ |
    ⟨b, r, fs, machine, f, next, hc, hp, rfl⟩
  · cases hc
    cases hb
    rw [fuseFrom_nil, append_nil]
    obtain ⟨fast', hw, hm⟩ := moves_keep device ha .nil [] t ht hle
    exact ⟨.finished fast', hm.ends ⟨1, runFor_done 0 fast' t⟩, rfl, hw⟩
  · cases hc
    -- only output and input fail, and nothing is ever fused with them
    have hbs : b.isSilent = false := by
      cases hbs : b.isSilent with
      | false => rfl
      | true =>
        rw [perform_of_isSilent hbs] at hp
        cases hp
    rw [fuseFrom_of_not_fuse? (Action.fuse?_eq_none_of_right hbs), keep_append,
      fuseFrom_of_not_isSilent hbs, act_append]
    obtain ⟨fast', hw, hm⟩ := moves_keep device ha
      (.act b (r.pass assumed ++ q)) loops' s ht hle
    obtain ⟨outcome', hp', ho⟩ := perform_within hw hp
    cases outcome' with
    | finished next' => cases ho.1
    | failed f' next' => exact ⟨_, hm.ends ⟨1, runFor_act_failed hp'⟩, ho⟩

/-! ## Whole runs -/

/-- However often the program moves, the fused program follows. -/
theorem moves (h : assumed.Admits actual) (htr : Trails assumed actual c d) {n : Nat}
    (hm : Moves actual device n c s c' s') :
    ∃ k d', Moves actual device k d s d' s' ∧ Trails assumed actual c' d' := by
  induction hm generalizing d with
  | refl => exact ⟨0, d, .refl _ _, htr⟩
  | head hs _ ih =>
    obtain ⟨k, d', hd, htr', -⟩ := htr.step h hs
    obtain ⟨l, d'', hd', htr''⟩ := ih htr'
    exact ⟨k + l, d'', hd.trans hd', htr''⟩

/-- **Where the program ends, the fused program ends alike.** -/
theorem ends (h : assumed.Admits actual) (htr : Trails assumed actual c d) {outcome : Outcome ε}
    (he : Ends actual device c s outcome t) :
    ∃ outcome', Ends actual device d s outcome' t ∧ outcome'.Within outcome := by
  obtain ⟨n, c', s', hm, hs⟩ := ends_iff.1 he
  obtain ⟨k, d', hd, htr'⟩ := htr.moves h hm
  obtain ⟨outcome', he', ho⟩ := htr'.step_ended hs
  exact ⟨outcome', hd.ends he', ho⟩

end Trails

end Brainfuck
