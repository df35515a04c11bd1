import Brainfuck.Proofs.Fusion.Normal
/-!
# The canonical form of a program

Where cells wrap, what the optimizer comes to does not depend on the order
in which it gets there. `Program.canonical` builds it from the end of the
program to its beginning: an action is pushed onto what is already normal,
where it meets at most one neighbour, and a loop is kept if its canonical
body is not empty.

Pushing two actions that fuse is pushing the fused one (`push_push`), since
fusing is associative as far as it goes (`fuse?_assoc`). So a pass changes
nothing about the canonical form (`canonical_pass`), a normal program is its
own (`IsNormal.canonical_eq`), and it is what the optimizer comes to
(`optimize_eq_canonical`). Where cells clamp this fails, because three adds
may fuse in two ways.
-/

namespace Brainfuck

variable {policies : Policies}

/-! ## Fusing three actions -/

/-- Clamped, two moves that go anywhere fuse if they go the same way. -/
theorem fuseMoves?_clamp {x y : Int} (hx : x ≠ 0) (hy : y ≠ 0) :
    fuseMoves? .clamp x y = if 0 < x ↔ 0 < y then some (x + y) else none := by
  rw [fuseMoves?, if_neg hx, if_neg hy]
  simp only [Action.sameWay_iff]

theorem fuseMoves?_assoc {policy : Overflow} {x y z u v : Int} (hx : x ≠ 0) (hy : y ≠ 0)
    (hz : z ≠ 0) (hu : fuseMoves? policy x y = some u) (hv : fuseMoves? policy y z = some v) :
    fuseMoves? policy x v = some (x + y + z) ∧ fuseMoves? policy u z = some (x + y + z) := by
  cases policy with
  | wrap =>
    cases hu
    cases hv
    exact ⟨congrArg some (Int.add_assoc x y z).symm, rfl⟩
  | clamp =>
    rw [fuseMoves?_clamp hx hy, Option.ite_none_right_eq_some] at hu
    rw [fuseMoves?_clamp hy hz, Option.ite_none_right_eq_some] at hv
    obtain ⟨hxy, hu⟩ := hu
    obtain ⟨hyz, hv⟩ := hv
    cases hu
    cases hv
    -- all three go the same way, and so do the sums
    rw [fuseMoves?_clamp hx (by omega), if_pos (by omega), fuseMoves?_clamp (by omega) hz,
      if_pos (by omega), Int.add_assoc]
    exact ⟨rfl, rfl⟩

/-- Two moves that fuse go on in the direction of the second, where that
does not fuse with a third. -/
theorem fuseMoves?_eq_none {policy : Overflow} {x y z u : Int} (hx : x ≠ 0) (hy : y ≠ 0)
    (hz : z ≠ 0) (hu : fuseMoves? policy x y = some u) (hn : fuseMoves? policy y z = none) :
    fuseMoves? policy u z = none := by
  cases policy with
  | wrap => cases hn
  | clamp =>
    rw [fuseMoves?_clamp hx hy, Option.ite_none_right_eq_some] at hu
    rw [fuseMoves?_clamp hy hz] at hn
    obtain ⟨hxy, hu⟩ := hu
    cases hu
    have hyz : ¬ (0 < y ↔ 0 < z) := by
      intro h
      rw [if_pos h] at hn
      cases hn
    rw [fuseMoves?_clamp (by omega) hz, if_neg (by omega)]

/-- Two moves cancel only where every two moves fuse. -/
theorem eq_wrap_of_fuseMoves?_eq_zero {policy : Overflow} {x y : Int} (hx : x ≠ 0) (hy : y ≠ 0)
    (h : fuseMoves? policy x y = some 0) : policy = .wrap := by
  cases policy with
  | wrap => rfl
  | clamp =>
    rw [fuseMoves?_clamp hx hy, Option.ite_none_right_eq_some] at h
    have hsum := Option.some.inj h.2
    omega

namespace Action

variable {a b c d e : Action}

/-- An action that changes nothing adds nothing to the one before it. -/
theorem fuse?_of_isIdle_right (hb : b.isIdle = true) (h : a.fuse? policies b = some c) : c = a := by
  obtain ⟨tape, cell⟩ := policies
  cases a <;> cases b <;> simp only [fuse?, Option.map_eq_some_iff, reduceCtorEq] at h
  case move.move x y =>
    obtain ⟨z, hz, rfl⟩ := h
    obtain rfl : y = 0 := by simpa [isIdle] using hb
    rw [(fuseMoves?_eq_some hz).1, Int.add_zero]
  case add.add d e =>
    obtain ⟨f, hf, rfl⟩ := h
    obtain rfl : e = 0 := by simpa [isIdle] using hb
    rw [(fuseAdds?_eq_some hf).1, UInt8.add_zero]

variable (hw : policies.cell = .wrap)
include hw

/-- **Fusing is associative**: what two of three actions have been fused into
fuses with the third on either side, and into the same. -/
theorem fuse?_assoc (ha : a.isIdle = false) (hb : b.isIdle = false) (hd : d.isIdle = false)
    (hc : a.fuse? policies b = some c) (he : b.fuse? policies d = some e) :
    ∃ f, a.fuse? policies e = some f ∧ c.fuse? policies d = some f := by
  obtain ⟨tape, cell⟩ := policies
  obtain rfl : cell = .wrap := hw
  cases a <;> cases b <;> simp only [fuse?, Option.map_eq_some_iff, reduceCtorEq] at hc <;>
    cases d <;> simp only [fuse?, Option.map_eq_some_iff, reduceCtorEq] at he
  case move.move.move x y z =>
    simp only [isIdle, beq_eq_false_iff_ne] at ha hb hd
    obtain ⟨u, hu, rfl⟩ := hc
    obtain ⟨v, hv, rfl⟩ := he
    obtain ⟨h₁, h₂⟩ := fuseMoves?_assoc ha hb hd hu hv
    exact ⟨.move (x + y + z), by rw [fuse?, h₁]; rfl, by rw [fuse?, h₂]; rfl⟩
  case add.add.add x y z =>
    obtain ⟨u, hu, rfl⟩ := hc
    obtain ⟨v, hv, rfl⟩ := he
    cases hu
    cases hv
    exact ⟨.add (x + y + z), by rw [UInt8.add_assoc]; rfl, rfl⟩

/-- What does not fuse with the second of two actions does not fuse with
what the two have been fused into. -/
theorem fuse?_eq_none_of_fuse? (ha : a.isIdle = false) (hb : b.isIdle = false)
    (hd : d.isIdle = false) (hc : a.fuse? policies b = some c) (hn : b.fuse? policies d = none) :
    c.fuse? policies d = none := by
  obtain ⟨tape, cell⟩ := policies
  obtain rfl : cell = .wrap := hw
  cases a <;> cases b <;> simp only [fuse?, Option.map_eq_some_iff, reduceCtorEq] at hc <;>
    obtain ⟨u, hu, rfl⟩ := hc <;> cases d <;> try rfl
  case move.move.move x y z =>
    simp only [isIdle, beq_eq_false_iff_ne] at ha hb hd
    rw [fuse?, Option.map_eq_none_iff] at hn ⊢
    exact fuseMoves?_eq_none ha hb hd hu hn
  case add.add.add => cases hn

/-- Where two actions cancel, what does not fuse with the second does not
fuse with any that fuses with the first. -/
theorem fuse?_eq_none_of_cancel (hb : b.isIdle = false) (hd : d.isIdle = false)
    (hc : a.fuse? policies b = some c) (he : b.fuse? policies d = some e) (hi : e.isIdle = true)
    {x : Action} (hn : d.fuse? policies x = none) : a.fuse? policies x = none := by
  obtain ⟨tape, cell⟩ := policies
  obtain rfl : cell = .wrap := hw
  cases a <;> cases b <;> simp only [fuse?, Option.map_eq_some_iff, reduceCtorEq] at hc <;>
    cases d <;> simp only [fuse?, Option.map_eq_some_iff, reduceCtorEq] at he <;>
    obtain ⟨v, hv, rfl⟩ := he <;> cases x <;> try rfl
  case move.move.move.move =>
    simp only [isIdle, beq_eq_false_iff_ne] at hb hd
    obtain rfl : v = 0 := by simpa [isIdle] using hi
    obtain rfl := eq_wrap_of_fuseMoves?_eq_zero hb hd hv
    cases hn
  case add.add.add.add => cases hn

end Action

/-! ## Pushing an action -/

namespace Program

/-- Puts an action in front, fused with the first one where they fuse, and
nothing where nothing is left. -/
def push (policies : Policies) (a : Action) : Program → Program
  | nil => keep a nil
  | act b r =>
    match a.fuse? policies b with
    | some c => keep c r
    | none => keep a (act b r)
  | loop b r => keep a (loop b r)

variable {a b c : Action} {p q r : Program}

theorem push_of_fuse? (h : a.fuse? policies b = some c) (r : Program) :
    push policies a (act b r) = keep c r := by
  simp only [push, h]

theorem push_of_not_fuse? (h : ∀ b ∈ p.firstAction?, a.fuse? policies b = none) :
    push policies a p = keep a p := by
  cases p with
  | nil => rfl
  | act b r => simp only [push, h b rfl]
  | loop b r => rfl

theorem push_of_isIdle (ha : a.isIdle = true) (hp : p.IsNormal policies) :
    push policies a p = p := by
  cases p with
  | nil => exact keep_of_isIdle ha _
  | act b r =>
    cases hf : a.fuse? policies b with
    | some c =>
      obtain rfl := Action.fuse?_of_isIdle ha hf
      rw [push_of_fuse? hf, keep_of_not_isIdle hp.1]
    | none =>
      rw [push_of_not_fuse? (by simpa [firstAction?] using hf), keep_of_isIdle ha]
  | loop b r => exact keep_of_isIdle ha _

/-- An action in front that fuses with nothing keeps a program normal. -/
theorem IsNormal.keep (hp : p.IsNormal policies)
    (h : ∀ b ∈ p.firstAction?, a.fuse? policies b = none) : (keep a p).IsNormal policies := by
  cases ha : a.isIdle with
  | true => rwa [keep_of_isIdle ha]
  | false =>
    rw [keep_of_not_isIdle ha]
    exact isNormal_act_iff.2 ⟨ha, h, hp⟩

section

variable (hw : policies.cell = .wrap)
include hw

/-- Pushing an action keeps a program normal. -/
theorem IsNormal.push (hp : p.IsNormal policies) (a : Action) :
    (push policies a p).IsNormal policies := by
  cases ha : a.isIdle with
  | true => rwa [push_of_isIdle ha hp]
  | false =>
    cases p with
    | nil => exact hp.keep (by simp [firstAction?])
    | loop b r => exact hp.keep (by simp [firstAction?])
    | act b r =>
      obtain ⟨hb, hfirst, hr⟩ := isNormal_act_iff.1 hp
      cases hf : a.fuse? policies b with
      | none =>
        have hnone : ∀ d ∈ (act b r).firstAction?, a.fuse? policies d = none := by
          simpa [firstAction?] using hf
        rw [push_of_not_fuse? hnone]
        exact hp.keep hnone
      | some c =>
        rw [push_of_fuse? hf]
        exact hr.keep fun d hd =>
          Action.fuse?_eq_none_of_fuse? hw ha hb (hr.not_isIdle d hd) hf (hfirst d hd)

/-- **Pushing two actions that fuse is pushing the fused one.** -/
theorem push_push (hf : a.fuse? policies b = some c) (hp : p.IsNormal policies) :
    Program.push policies a (Program.push policies b p) = Program.push policies c p := by
  cases ha : a.isIdle with
  | true =>
    obtain rfl := Action.fuse?_of_isIdle ha hf
    rw [push_of_isIdle ha (hp.push hw c)]
  | false =>
    cases hb : b.isIdle with
    | true =>
      obtain rfl := Action.fuse?_of_isIdle_right hb hf
      rw [push_of_isIdle hb hp]
    | false =>
      by_cases hn : ∀ d ∈ p.firstAction?, b.fuse? policies d = none
      · have hc : ∀ d ∈ p.firstAction?, c.fuse? policies d = none := fun d hd =>
          Action.fuse?_eq_none_of_fuse? hw ha hb (hp.not_isIdle d hd) hf (hn d hd)
        rw [push_of_not_fuse? hn, keep_of_not_isIdle hb, push_of_fuse? hf, push_of_not_fuse? hc]
      · cases p with
        | nil | loop body r => exact absurd (by simp [firstAction?]) hn
        | act d r =>
          obtain ⟨hd, hfirst, hr⟩ := isNormal_act_iff.1 hp
          obtain ⟨e, he⟩ : ∃ e, b.fuse? policies d = some e := by
            simpa [firstAction?, Option.ne_none_iff_exists'] using hn
          obtain ⟨f, hae, hcd⟩ := Action.fuse?_assoc hw ha hb hd hf he
          rw [push_of_fuse? he, push_of_fuse? hcd]
          cases hi : e.isIdle with
          | false => rw [keep_of_not_isIdle hi, push_of_fuse? hae]
          | true =>
            -- the neighbours have cancelled, and what was behind them is met instead
            obtain rfl := Action.fuse?_of_isIdle_right hi hae
            rw [keep_of_isIdle hi, push_of_not_fuse? fun x hx =>
              Action.fuse?_eq_none_of_cancel hw hb hd hf he hi (hfirst x hx)]

end

/-! ## The canonical form -/

/-- The program with everything fused and left out that can be, from its end
to its beginning. -/
def canonical (policies : Policies) : Program → Program
  | nil => nil
  | act a r => push policies a (canonical policies r)
  | loop b r => keepLoop (canonical policies b) (canonical policies r)

theorem IsNormal.keepLoop (hp : p.IsNormal policies) (hq : q.IsNormal policies) :
    (keepLoop p q).IsNormal policies := by
  by_cases h : p = nil
  · rwa [h, keepLoop_nil]
  · rw [keepLoop_of_ne_nil h]
    exact ⟨h, hp, hq⟩

/-- A normal program is canonical. -/
theorem IsNormal.canonical_eq (h : p.IsNormal policies) : p.canonical policies = p := by
  induction p with
  | nil => rfl
  | act a r ih =>
    obtain ⟨ha, hfirst, hr⟩ := isNormal_act_iff.1 h
    rw [canonical, ih hr, push_of_not_fuse? hfirst, keep_of_not_isIdle ha]
  | loop b r ihb ih =>
    obtain ⟨hn, hb, hr⟩ := h
    rw [canonical, ihb hb, ih hr, keepLoop_of_ne_nil hn]

theorem canonical_keepLoop (b p : Program) :
    (keepLoop b p).canonical policies =
      keepLoop (b.canonical policies) (p.canonical policies) := by
  by_cases h : b = nil
  · rw [h, keepLoop_nil]
    rfl
  · rw [keepLoop_of_ne_nil h]
    rfl

section

variable (hw : policies.cell = .wrap)
include hw

theorem isNormal_canonical (p : Program) : (p.canonical policies).IsNormal policies := by
  induction p with
  | nil => trivial
  | act a r ih => exact ih.push hw a
  | loop b r ihb ih => exact ihb.keepLoop ih

theorem canonical_canonical (p : Program) :
    (p.canonical policies).canonical policies = p.canonical policies :=
  (isNormal_canonical hw p).canonical_eq

theorem canonical_keep (a : Action) (p : Program) :
    (keep a p).canonical policies = push policies a (p.canonical policies) := by
  cases ha : a.isIdle with
  | true => rw [keep_of_isIdle ha, push_of_isIdle ha (isNormal_canonical hw p)]
  | false =>
    rw [keep_of_not_isIdle ha]
    rfl

/-! ## Passes -/

/-- What comes of a run and the rest behind it has the canonical form of the
two: the induction is on the rest, for every action that the run so far is
fused into. -/
theorem canonical_fuseFrom (p : Program) : ∀ a : Action,
    (fuseFrom policies a p).canonical policies = push policies a (p.canonical policies) := by
  induction p with
  | nil =>
    intro a
    exact canonical_keep hw a nil
  | act b r ih =>
    intro a
    cases hf : a.fuse? policies b with
    | some c =>
      rw [fuseFrom_of_fuse? hf, ih c, canonical, push_push hw hf (isNormal_canonical hw r)]
    | none => rw [fuseFrom_of_not_fuse? hf, canonical_keep hw, ih b, canonical]
  | loop b r ihb ih =>
    intro a
    rw [fuseFrom_loop, canonical_keep hw, canonical_keepLoop, pass, pass, ihb, ih,
      push_of_isIdle rfl (isNormal_canonical hw b), push_of_isIdle rfl (isNormal_canonical hw r),
      canonical]

/-- **A pass changes nothing about the canonical form.** -/
theorem canonical_pass (p : Program) :
    (p.pass policies).canonical policies = p.canonical policies := by
  rw [pass, canonical_fuseFrom hw, push_of_isIdle rfl (isNormal_canonical hw p)]

/-- **The optimizer comes to the canonical form.** -/
theorem optimize_eq_canonical (p : Program) :
    p.optimize policies .untilStable = p.canonical policies := by
  have hcanonical : (p.optimize policies .untilStable).canonical policies =
      p.canonical policies :=
    optimize_induction (motive := fun q => q.canonical policies = p.canonical policies)
      (fun q hq => (canonical_pass hw q).trans hq) .untilStable rfl
  rw [← hcanonical, (isStable_optimize p).isNormal.canonical_eq]

/-! ## Segments -/

theorem canonical_push_append (a : Action) (p q : Program) :
    (push policies a p ++ q).canonical policies =
      push policies a ((p ++ q).canonical policies) := by
  by_cases hn : ∀ b ∈ p.firstAction?, a.fuse? policies b = none
  · rw [push_of_not_fuse? hn, keep_append, canonical_keep hw]
  · cases p with
    | nil | loop body r => exact absurd (by simp [firstAction?]) hn
    | act b r =>
      obtain ⟨c, hc⟩ : ∃ c, a.fuse? policies b = some c := by
        simpa [firstAction?, Option.ne_none_iff_exists'] using hn
      rw [push_of_fuse? hc, keep_append, canonical_keep hw, act_append, canonical,
        push_push hw hc (isNormal_canonical hw _)]

/-- The first part of a program may be replaced by its canonical form. -/
theorem canonical_append_left (p q : Program) :
    (p.canonical policies ++ q).canonical policies = (p ++ q).canonical policies := by
  induction p with
  | nil => rfl
  | act a r ih => rw [canonical, canonical_push_append hw, ih, act_append, canonical]
  | loop b r _ ih =>
    rw [canonical, keepLoop_append, canonical_keepLoop, canonical_canonical hw, ih, loop_append,
      canonical]

/-- And so may the last. -/
theorem canonical_append_right (p q : Program) :
    (p ++ q.canonical policies).canonical policies = (p ++ q).canonical policies := by
  induction p with
  | nil => exact canonical_canonical hw q
  | act a r ih => rw [act_append, act_append, canonical, canonical, ih]
  | loop b r _ ih => rw [loop_append, loop_append, canonical, canonical, ih]

end

/-! ## Contexts -/

/-- A program with a place for a segment, at the top level or in the body of
a loop at any depth. -/
inductive Context where
  /-- The segment stands between two parts. -/
  | segment (before after : Program)
  /-- The segment stands in the body of a loop between two parts. -/
  | inLoop (before : Program) (body : Context) (after : Program)
  deriving DecidableEq, Repr

/-- The program with a segment in the place for it. -/
def Context.fill (s : Program) : Context → Program
  | segment p q => p ++ (s ++ q)
  | inLoop p c q => p ++ loop (c.fill s) q

/-- A segment may be replaced by its canonical form wherever it stands. -/
theorem Context.canonical_fill (hw : policies.cell = .wrap) (c : Context) (s : Program) :
    (c.fill (s.canonical policies)).canonical policies = (c.fill s).canonical policies := by
  induction c with
  | segment p q =>
    rw [fill, ← canonical_append_right hw, canonical_append_left hw, canonical_append_right hw,
      fill]
  | inLoop p c q ih =>
    rw [fill, ← canonical_append_right hw, canonical, ih, ← canonical, canonical_append_right hw,
      fill]

/-- **What the optimizer comes to is canonical**, whatever was optimized
first. Where cells wrap, and with either policy of the tape, replacing any
segment of a program, at the top level or in the body of a loop at any
depth, by what the optimizer makes of it changes nothing about what the
optimizer makes of the whole. In particular the two parts of a program, and
the body of a loop, may be optimized beforehand. -/
theorem optimize_fill_optimize (tape : Overflow) :
    (∀ (c : Context) (s : Program),
      (c.fill (s.optimize ⟨tape, .wrap⟩ (.ofNat 0))).optimize ⟨tape, .wrap⟩ (.ofNat 0) =
        (c.fill s).optimize ⟨tape, .wrap⟩ (.ofNat 0)) ∧
    (∀ p q : Program,
      (p ++ q).optimize ⟨tape, .wrap⟩ (.ofNat 0) =
        (p.optimize ⟨tape, .wrap⟩ (.ofNat 0) ++ q.optimize ⟨tape, .wrap⟩ (.ofNat 0)).optimize
          ⟨tape, .wrap⟩ (.ofNat 0)) ∧
    ∀ b : Program,
      (loop b nil).optimize ⟨tape, .wrap⟩ (.ofNat 0) =
        (loop (b.optimize ⟨tape, .wrap⟩ (.ofNat 0)) nil).optimize ⟨tape, .wrap⟩ (.ofNat 0) := by
  have hopt : ∀ p : Program,
      p.optimize ⟨tape, .wrap⟩ (.ofNat 0) = p.canonical ⟨tape, .wrap⟩ :=
    optimize_eq_canonical rfl
  simp only [hopt]
  refine ⟨Context.canonical_fill rfl, fun p q => ?_, fun b => ?_⟩
  · rw [canonical_append_left rfl, canonical_append_right rfl]
  · have hb : (b.canonical ⟨tape, .wrap⟩).canonical ⟨tape, .wrap⟩ = b.canonical ⟨tape, .wrap⟩ :=
      canonical_canonical rfl b
    exact congrArg (fun body => keepLoop body nil) hb.symm

end Program

end Brainfuck
