import Brainfuck.Proofs.Fusion.Soundness
/-!
# What a pass adds is the end of a loop it leaves out

A program that runs forever may end once a pass has left out the loop that
it was caught in. `Config.Spares` says that this does not happen: along the
run no loop that the pass leaves out is tested while the current cell is
not zero. Then a run ends exactly where the run of the pass ends, and alike
(`endsAlike_pass_iff_of_spares`).

The direction back rests on the step lemma of `Trails`: a move that the
fused program does not match makes what comes next smaller, so there are
only finitely many of them between two that it matches.
-/

namespace Brainfuck

open Program

variable {σ ε : Type} {device : Device (StateM σ) ε}
variable {assumed actual : Policies}

/-! ## Runs that enter no loop which is left out -/

/-- The body of the loop whose test is the next move, if the next move is a
test. -/
def Config.tested? : Config → Option Program
  | ⟨.nil, [], _⟩ => none
  | ⟨.nil, f :: _, _⟩ => some f.body
  | ⟨.loop body _, _, _⟩ => some body
  | ⟨.act _ _, _, _⟩ => none

/-- Along the run no loop that a pass leaves out is tested while the
current cell is not zero. -/
def Config.Spares (assumed actual : Policies) (device : Device (StateM σ) ε) (c : Config)
    (s : σ) : Prop :=
  ∀ n c' s', Moves actual device n c s c' s' →
    ∀ body ∈ c'.tested?, body.pass assumed = .nil → c'.machine.tape.isNonzero = false

namespace Config

variable {c c' : Config} {s s' : σ}

theorem Spares.step (h : c.Spares assumed actual device s)
    (hs : Config.step actual device c s = (.next c', s')) :
    c'.Spares assumed actual device s' :=
  fun n c'' s'' hm => h (n + 1) c'' s'' (.head hs hm)

theorem Spares.of_step (hs : Config.step actual device c s = (.next c', s'))
    (ht : ∀ body ∈ c.tested?, body.pass assumed = .nil → c.machine.tape.isNonzero = false)
    (h : c'.Spares assumed actual device s') : c.Spares assumed actual device s := by
  intro n c'' s'' hm
  cases hm with
  | refl => exact ht
  | head hs' hm =>
    rw [hs] at hs'
    cases hs'
    exact h _ c'' s'' hm

theorem Spares.of_ended {t : σ} {outcome : Outcome ε}
    (hs : Config.step actual device c s = (.ended outcome, t)) (ht : c.tested? = none) :
    c.Spares assumed actual device s := by
  intro n c'' s'' hm
  cases hm with
  | refl => simp [ht]
  | head hs' hm =>
    rw [hs] at hs'
    cases hs'

/-- Such a run stays outside of the loops that are left out. -/
theorem Spares.not_inDropped (h : c.Spares assumed actual device s) (hd : ¬ c.InDropped assumed)
    (hs : Config.step actual device c s = (.next c', s')) : ¬ c'.InDropped assumed := by
  rcases step_cases hs with ⟨f, loops, machine, rfl, rfl, rfl⟩ |
    ⟨body, after, loops, machine, rfl, rfl, rfl⟩ | ⟨a, rest, loops, machine, next, rfl, hp, rfl⟩
  · unfold Frame.resume
    split
    · exact hd
    · rintro ⟨g, hg, hn⟩
      exact hd ⟨g, List.mem_cons_of_mem _ hg, hn⟩
  · unfold Frame.resume
    split
    · rename_i hz
      rintro ⟨g, hg, hn⟩
      rcases List.mem_cons.1 hg with rfl | hg
      · -- the loop that is entered has just been tested
        have := h 0 _ _ (.refl _ _) body rfl hn
        simp [Machine.tick, this] at hz
      · exact hd ⟨g, hg, hn⟩
    · exact hd
  · exact hd

end Config

/-! ## The direction back -/

/-- **Where the fused program ends, the program ends**, if its run spares
the loops that are left out. The induction is on the moves that the fused
program has left, and between two of them on the size of what comes next. -/
theorem Trails.ends_of_runFor (h : assumed.Admits actual) {fuel : Nat} {c d : Config} {s t : σ}
    {outcome : Outcome ε} (htr : Trails assumed actual c d) (hd : ¬ c.InDropped assumed)
    (hsp : c.Spares assumed actual device s)
    (hr : runFor actual device fuel d s = (some outcome, t)) :
    ∃ outcome' t', Ends actual device c s outcome' t' := by
  induction fuel using Nat.strongRecOn generalizing c d s with
  | ind fuel ihFuel =>
    induction hsize : c.pending.size using Nat.strongRecOn generalizing c d s with
    | ind size ihSize =>
      rcases hs : Config.step actual device c s with ⟨c' | outcome', s'⟩
      · obtain ⟨n, d', hm, htr', hn⟩ := htr.step h hs
        obtain ⟨hle, hr'⟩ := hm.runFor_sub hr
        have hd' : ¬ c'.InDropped assumed := hsp.not_inDropped hd hs
        have hends : ∃ outcome' t', Ends actual device c' s' outcome' t' := by
          -- unmatched moves use up what comes next, the others use up the fused run
          rcases Nat.eq_zero_or_pos n with rfl | hpos
          · rcases hn rfl with hlt | hin | hin
            · exact ihSize c'.pending.size (by omega) htr' hd' (hsp.step hs) hr' rfl
            · exact absurd hin hd
            · exact absurd hin hd'
          · exact ihFuel (fuel - n) (by omega) htr' hd' (hsp.step hs) hr'
        obtain ⟨outcome', t', he⟩ := hends
        exact ⟨outcome', t', (Moves.single hs).ends he⟩
      · exact ⟨outcome', s', 1, runFor_of_step_ended hs⟩

theorem not_inDropped_start (p : Program) (machine : Machine) :
    ¬ (Config.start p machine).InDropped assumed := by
  rintro ⟨f, hf, -⟩
  cases hf

/-- **A run that spares the loops which a pass leaves out ends where the
run of the pass ends**, and alike. -/
theorem endsAlike_pass_iff_of_spares (h : assumed.Admits actual) {p : Program}
    {machine : Machine} {s : σ}
    (hsp : (Config.start p machine).Spares assumed actual device s) (outcome : Outcome ε)
    (t : σ) :
    EndsAlike actual device (.start p machine) s outcome t ↔
      EndsAlike actual device (.start (p.pass assumed) machine) s outcome t := by
  constructor
  · rintro ⟨o, ho, he⟩
    obtain ⟨o', he', ho'⟩ := (refines_pass h p).ends he
    exact ⟨o', ho'.agrees.trans ho, he'⟩
  · rintro ⟨o, ho, fuel, hr⟩
    obtain ⟨o₁, t₁, he₁⟩ :=
      (Trails.start p machine).ends_of_runFor h (not_inDropped_start p machine) hsp hr
    obtain ⟨o₂, he₂, ho₂⟩ := (refines_pass h p).ends he₁
    obtain ⟨rfl, rfl⟩ := he₂.unique ⟨fuel, hr⟩
    exact ⟨o₁, ho₂.agrees.symm.trans ho, he₁⟩

/-! ## Programs whose loops are all kept -/

/-- A pass leaves out no loop, at any depth. -/
def Program.KeepsLoops (policies : Policies) : Program → Prop
  | nil => True
  | act _ r => KeepsLoops policies r
  | loop b r => b.pass policies ≠ nil ∧ KeepsLoops policies b ∧ KeepsLoops policies r

/-- What comes next in a configuration, and all bodies and rests of the
loops around it, have their loops kept. -/
structure Config.KeepsLoops (assumed : Policies) (c : Config) : Prop where
  pending : c.pending.KeepsLoops assumed
  loops : ∀ f ∈ c.loops, f.body.pass assumed ≠ .nil ∧ f.body.KeepsLoops assumed ∧
    f.after.KeepsLoops assumed

namespace Config

variable {c c' : Config} {s s' : σ}

theorem KeepsLoops.resume {f : Frame} {loops : List Frame} {machine machine' : Machine}
    (h : KeepsLoops assumed ⟨.nil, f :: loops, machine⟩) :
    (f.resume loops machine').KeepsLoops assumed := by
  obtain ⟨-, hbody, hafter⟩ := h.loops f (List.mem_cons_self ..)
  unfold Frame.resume
  split
  · exact ⟨hbody, h.loops⟩
  · exact ⟨hafter, fun g hg => h.loops g (List.mem_cons_of_mem _ hg)⟩

theorem KeepsLoops.step (h : c.KeepsLoops assumed)
    (hs : Config.step actual device c s = (.next c', s')) : c'.KeepsLoops assumed := by
  rcases step_cases hs with ⟨f, loops, machine, rfl, rfl, rfl⟩ |
    ⟨body, after, loops, machine, rfl, rfl, rfl⟩ | ⟨a, rest, loops, machine, next, rfl, hp, rfl⟩
  · exact h.resume
  · obtain ⟨hloop, hloops⟩ := h
    have hframe : KeepsLoops assumed ⟨.nil, ⟨body, after⟩ :: loops, machine⟩ := by
      refine ⟨trivial, fun g hg => ?_⟩
      rcases List.mem_cons.1 hg with rfl | hg
      · exact hloop
      · exact hloops g hg
    exact hframe.resume
  · exact ⟨h.pending, h.loops⟩

/-- No test is that of a loop which is left out. -/
theorem KeepsLoops.pass_tested_ne_nil (h : c.KeepsLoops assumed) :
    ∀ body ∈ c.tested?, body.pass assumed ≠ .nil := by
  obtain ⟨pending, loops, machine⟩ := c
  intro body hb
  cases pending with
  | nil =>
    cases loops with
    | nil => cases hb
    | cons f loops =>
      cases hb
      exact (h.loops f (List.mem_cons_self ..)).1
  | act a r => cases hb
  | loop b r =>
    cases hb
    exact h.pending.1

theorem KeepsLoops.moves {n : Nat} (h : c.KeepsLoops assumed)
    (hm : Moves actual device n c s c' s') : c'.KeepsLoops assumed := by
  induction hm with
  | refl => exact h
  | head hs _ ih => exact ih (h.step hs)

theorem KeepsLoops.spares (h : c.KeepsLoops assumed) :
    c.Spares assumed actual device s :=
  fun _ _ _ hm body hb hn => absurd hn ((h.moves hm).pass_tested_ne_nil body hb)

end Config

theorem Program.KeepsLoops.start {p : Program} (h : p.KeepsLoops assumed) (machine : Machine) :
    (Config.start p machine).KeepsLoops assumed where
  pending := h
  loops := by
    intro f hf
    cases hf

/-! ## What a pass adds -/

/-- **The only ends that a pass adds are those of loops it leaves out.** A
run along which no such loop is tested while the current cell is not zero
ends exactly if the run of the pass ends, with the same failure, if any,
the same cells and cursor and the same calls; and if the pass leaves out no
loop at all, this holds of every run. -/
theorem endsAlike_pass_iff (h : assumed.Admits actual) (p : Program) :
    (∀ machine s, (Config.start p machine).Spares assumed actual device.recorded ([], s) →
      ∀ outcome t,
        EndsAlike actual device.recorded (.start p machine) ([], s) outcome t ↔
          EndsAlike actual device.recorded (.start (p.pass assumed) machine) ([], s) outcome t) ∧
    (p.KeepsLoops assumed → ∀ machine s outcome t,
      EndsAlike actual device.recorded (.start p machine) ([], s) outcome t ↔
        EndsAlike actual device.recorded (.start (p.pass assumed) machine) ([], s) outcome t) := by
  constructor
  · intro machine s hsp outcome t
    exact endsAlike_pass_iff_of_spares h hsp outcome t
  · intro hk machine s outcome t
    exact endsAlike_pass_iff_of_spares h (hk.start machine).spares outcome t

/-- Reads a character and counts it down. -/
def readDown : Program := .act .input (.loop (.act (.add 255) (.act .output .nil)) .nil)

/-- `readTwice` reaches the loop that a pass leaves out with a zero cell,
and `readDown` has no such loop. -/
theorem endsAlike_pass_iff_readTwice_readDown :
    Policies.Admits ⟨.wrap, .clamp⟩ ⟨.wrap, .clamp⟩ ∧
    (Config.start readTwice ⟨.blank 2 (by decide), 0⟩).Spares ⟨.wrap, .clamp⟩ ⟨.wrap, .clamp⟩
      Buffer.device.recorded ([], ⟨['a'], ""⟩) ∧
    (EndsAlike ⟨.wrap, .clamp⟩ Buffer.device.recorded
      (.start readTwice ⟨.blank 2 (by decide), 0⟩) ([], ⟨['a'], ""⟩)
      (.failed (.device .exhausted) ⟨⟨#[97, 0], 0, by decide⟩, 8⟩)
      ([.read (.error .exhausted), .write 'a' (.ok ()), .read (.ok 'a')], ⟨[], "".push 'a'⟩) ↔
    EndsAlike ⟨.wrap, .clamp⟩ Buffer.device.recorded
      (.start (readTwice.pass ⟨.wrap, .clamp⟩) ⟨.blank 2 (by decide), 0⟩) ([], ⟨['a'], ""⟩)
      (.failed (.device .exhausted) ⟨⟨#[97, 0], 0, by decide⟩, 8⟩)
      ([.read (.error .exhausted), .write 'a' (.ok ()), .read (.ok 'a')], ⟨[], "".push 'a'⟩)) ∧
    readDown.KeepsLoops ⟨.wrap, .clamp⟩ ∧
    (EndsAlike ⟨.wrap, .clamp⟩ Buffer.device.recorded
      (.start readDown ⟨.blank 1 (by decide), 0⟩) ([], ⟨['\x01'], ""⟩)
      (.finished ⟨⟨#[0], 0, by decide⟩, 4⟩)
      ([.write '\x00' (.ok ()), .read (.ok '\x01')], ⟨[], "".push '\x00'⟩) ↔
    EndsAlike ⟨.wrap, .clamp⟩ Buffer.device.recorded
      (.start (readDown.pass ⟨.wrap, .clamp⟩) ⟨.blank 1 (by decide), 0⟩) ([], ⟨['\x01'], ""⟩)
      (.finished ⟨⟨#[0], 0, by decide⟩, 4⟩)
      ([.write '\x00' (.ok ()), .read (.ok '\x01')], ⟨[], "".push '\x00'⟩)) := by
  have hadmits : Policies.Admits ⟨.wrap, .clamp⟩ ⟨.wrap, .clamp⟩ := by decide
  have hspares : (Config.start readTwice ⟨.blank 2 (by decide), 0⟩).Spares ⟨.wrap, .clamp⟩
      ⟨.wrap, .clamp⟩ Buffer.device.recorded ([], ⟨['a'], ""⟩) :=
    .of_step rfl (by decide) <| .of_step rfl (by decide) <| .of_step rfl (by decide) <|
    .of_step rfl (by decide) <| .of_step rfl (by decide) <| .of_step rfl (by decide) <|
    .of_step rfl (by decide) <| .of_step rfl (by decide) <| .of_ended rfl rfl
  have hkeeps : readDown.KeepsLoops ⟨.wrap, .clamp⟩ := ⟨by decide, trivial, trivial⟩
  exact ⟨hadmits, hspares,
    (@endsAlike_pass_iff _ _ Buffer.device _ _ hadmits readTwice).1 _ _ hspares _ _, hkeeps,
    (@endsAlike_pass_iff _ _ Buffer.device _ _ hadmits readDown).2 hkeeps _ _ _ _⟩

end Brainfuck
