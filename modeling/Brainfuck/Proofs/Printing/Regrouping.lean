import Brainfuck.Options
import Brainfuck.Proofs.Fusion.Canonical
import Brainfuck.Proofs.Printing.RoundTrip
/-!
# Fusing what is read back

Where cells wrap, one pass over what is read back of a normal program gives
the program again: `IsNormal.pass_units`. The units of an action are fused
into the action that they are units of (`pass_acts_units`), whatever comes
behind them, and no further, since the first unit of an action fuses with
nothing that the action itself does not fuse with
(`fuse?_eq_none_of_unit`). So a normal program is not lost in print, and
compiling the text of a compiled program changes nothing.

Where cells clamp this fails: two adds of `-100` are normal and are printed as
`200` minus signs, of which a pass fuses the first `128`.
-/

namespace Brainfuck

variable {policies : Policies}

/-! ## Fusing equal actions -/

/-- Amounts that do not cancel fuse into their sum. -/
theorem fuseMoves?_of_aligned {policy : Overflow} {x y : Int} (h : Overflow.Aligned x y) :
    fuseMoves? policy x y = some (x + y) := by
  cases policy with
  | wrap => rfl
  | clamp =>
    unfold Overflow.Aligned at h
    by_cases hx : x = 0
    · rw [fuseMoves?, if_pos hx, hx, Int.zero_add]
    · by_cases hy : y = 0
      · rw [fuseMoves?, if_neg hx, if_pos hy, hy, Int.add_zero]
      · rw [fuseMoves?_clamp hx hy, if_pos (by omega)]

namespace Program

/-- A move in front of the same move many times is fused with all of them. -/
theorem fuseFrom_replicate_move (x : Int) (n : Nat) (p : Program) : ∀ m : Int,
    Overflow.Aligned m x →
    fuseFrom policies (.move m) (acts (.replicate n (.move x)) p) =
      fuseFrom policies (.move (m + n * x)) p := by
  induction n with
  | zero =>
    intro m _
    have hnothing : m + ((0 : Nat) : Int) * x = m := by omega
    rw [hnothing]
    rfl
  | succ n ih =>
    intro m hm
    have hfuse : (Action.move m).fuse? policies (.move x) = some (.move (m + x)) := by
      rw [Action.fuse?, fuseMoves?_of_aligned hm]
      rfl
    have hnext : Overflow.Aligned (m + x) x := by
      unfold Overflow.Aligned at hm ⊢
      omega
    have hsum : m + x + n * x = m + ((n + 1 : Nat) : Int) * x := by
      rw [Int.natCast_succ, Int.add_mul, Int.one_mul]
      omega
    rw [List.replicate_succ, acts_cons, fuseFrom_of_fuse? hfuse, ih (m + x) hnext, hsum]

/-- So is an add, where cells wrap. -/
theorem fuseFrom_replicate_add (hw : policies.cell = .wrap) (e : UInt8) (n : Nat) (p : Program) :
    ∀ d : UInt8, fuseFrom policies (.add d) (acts (.replicate n (.add e)) p) =
      fuseFrom policies (.add (d + UInt8.ofNat n * e)) p := by
  induction n with
  | zero =>
    intro d
    have hnothing : d + UInt8.ofNat 0 * e = d := by simp
    rw [hnothing]
    rfl
  | succ n ih =>
    intro d
    have hfuse : (Action.add d).fuse? policies (.add e) = some (.add (d + e)) := by
      rw [Action.fuse?, hw]
      rfl
    have hsum : d + e + UInt8.ofNat n * e = d + UInt8.ofNat (n + 1) * e := by
      rw [UInt8.ofNat_add, UInt8.add_mul, UInt8.add_assoc, UInt8.add_comm e]
      simp
    rw [List.replicate_succ, acts_cons, fuseFrom_of_fuse? hfuse, ih (d + e), hsum]

end Program

/-! ## Fusing units -/

theorem signed_eq_zero {d : UInt8} : signed d = 0 ↔ d = 0 := by
  constructor
  · intro h
    have hd := d.toNat_lt
    apply UInt8.toNat_inj.1
    rw [signed_eq] at h
    change d.toNat = 0
    omega
  · rintro rfl
    rfl

/-- The units of an add come to the add. -/
theorem add_units {d : UInt8} {n : Nat} (h : (signed d).natAbs = n + 1) :
    (if 0 < signed d then 1 else 255) + UInt8.ofNat n * (if 0 < signed d then 1 else 255) = d := by
  have hd := d.toNat_lt
  apply UInt8.toNat_inj.1
  by_cases hs : 0 < signed d
  · rw [if_pos hs, UInt8.toNat_add, UInt8.toNat_mul, UInt8.toNat_ofNat']
    change (1 + n % 256 * 1 % 256) % 256 = d.toNat
    rw [signed_eq] at h hs
    omega
  · rw [if_neg hs, UInt8.toNat_add, UInt8.toNat_mul, UInt8.toNat_ofNat']
    change (255 + n % 256 * 255 % 256) % 256 = d.toNat
    rw [signed_eq] at h hs
    omega

namespace Action

/-- What each of the units of an action is. -/
def unit : Action → Action
  | move n => move (if 0 < n then 1 else -1)
  | add d => add (if 0 < signed d then 1 else 255)
  | output => output
  | input => input

/-- How many units an action has. -/
def unitCount : Action → Nat
  | move n => n.natAbs
  | add d => (signed d).natAbs
  | output => 1
  | input => 1

theorem units_eq_replicate (a : Action) : a.units = .replicate a.unitCount a.unit := by
  cases a with
  | move n => rw [units, ← apply_ite move, unitCount, unit]
  | add d => rw [units, ← apply_ite add, unitCount, unit]
  | output | input => rfl

/-- An action that changes something has at least one unit. -/
theorem exists_unitCount_eq_succ {a : Action} (ha : a.isIdle = false) :
    ∃ n, a.unitCount = n + 1 := by
  refine Nat.exists_eq_succ_of_ne_zero fun h => ?_
  cases a with
  | move n =>
    rw [unitCount, Int.natAbs_eq_zero] at h
    simp [isIdle, h] at ha
  | add d =>
    rw [unitCount, Int.natAbs_eq_zero, signed_eq_zero] at h
    simp [isIdle, h] at ha
  | output | input => cases h

/-- What does not fuse with an action does not fuse with its unit. -/
theorem fuse?_unit (hw : policies.cell = .wrap) {a b : Action} (ha : a.isIdle = false)
    (hb : b.isIdle = false) (h : a.fuse? policies b = none) : a.fuse? policies b.unit = none := by
  obtain ⟨tape, cell⟩ := policies
  obtain rfl : cell = .wrap := hw
  cases a <;> cases b <;> try rfl
  case move.move x y =>
    simp only [isIdle, beq_eq_false_iff_ne] at ha hb
    rw [fuse?, Option.map_eq_none_iff] at h
    rw [unit, fuse?, Option.map_eq_none_iff]
    cases tape with
    | wrap => cases h
    | clamp =>
      rw [fuseMoves?_clamp ha hb, ite_eq_right_iff] at h
      rw [fuseMoves?_clamp ha (by split <;> decide), if_neg]
      have hxy : ¬ (0 < x ↔ 0 < y) := fun hxy => Option.some_ne_none _ (h hxy)
      split <;> omega
  case add.add => cases h

end Action

namespace Program

/-- **A pass fuses the units of an action into the action**, and goes on
with what comes behind them. -/
theorem pass_acts_units (hw : policies.cell = .wrap) {a : Action} (ha : a.isIdle = false)
    (p : Program) : (acts a.units p).pass policies = fuseFrom policies a p := by
  cases a with
  | move n =>
    have hn : (n.natAbs : Int) * (if 0 < n then 1 else -1) = n := by
      split <;> omega
    have haligned : Overflow.Aligned 0 (if 0 < n then 1 else -1) := by
      unfold Overflow.Aligned
      by_cases h : 0 < n
      · exact Or.inl (by rw [if_pos h]; decide)
      · exact Or.inr (by rw [if_neg h]; decide)
    -- the run before the first instruction is a move by nothing
    rw [Action.units_eq_replicate, Action.unitCount, Action.unit, pass,
      fuseFrom_replicate_move _ _ _ _ haligned, hn, Int.zero_add]
  | add d =>
    obtain ⟨n, hn⟩ := Action.exists_unitCount_eq_succ ha
    rw [Action.units_eq_replicate, hn, List.replicate_succ, acts_cons, pass_act, Action.unit,
      fuseFrom_replicate_add hw, add_units hn]
  | output | input => exact pass_act _ p

/-! ## Normal programs in units -/

variable {p : Program}

/-- What does not fuse with the first action of a program does not fuse with
the first of the program in units. -/
theorem IsNormal.fuse?_units (hw : policies.cell = .wrap) (hp : p.IsNormal policies) {a : Action}
    (ha : a.isIdle = false) (h : ∀ b ∈ p.firstAction?, a.fuse? policies b = none) :
    ∀ u ∈ p.units.firstAction?, a.fuse? policies u = none := by
  cases p with
  | nil | loop b r => exact nofun
  | act b r =>
    obtain ⟨n, hn⟩ := Action.exists_unitCount_eq_succ hp.1
    rw [units, Action.units_eq_replicate, hn, List.replicate_succ, acts_cons]
    rintro _ ⟨⟩
    exact Action.fuse?_unit hw ha hp.1 (h b rfl)

/-- **A pass over a normal program in units gives the program back.** -/
theorem IsNormal.pass_units (hw : policies.cell = .wrap) (hp : p.IsNormal policies) :
    p.units.pass policies = p := by
  induction p with
  | nil => rfl
  | act a r ih =>
    obtain ⟨ha, hfirst, hr⟩ := isNormal_act_iff.1 hp
    rw [units, pass_acts_units hw ha, fuseFrom_of_first ha (hr.fuse?_units hw ha hfirst), ih hr]
  | loop b r ihb ih =>
    obtain ⟨hn, hb, hr⟩ := hp
    rw [units, pass_loop, ihb hb, ih hr, keepLoop_of_ne_nil hn]

/-- No loop of a normal program in units is empty: a pass would leave it
empty. -/
theorem IsNormal.withoutEmptyLoops_units (hw : policies.cell = .wrap) (hp : p.IsNormal policies) :
    p.units.withoutEmptyLoops = p.units := by
  induction p with
  | nil => rfl
  | act a r ih => rw [units, withoutEmptyLoops_acts, ih hp.2.2]
  | loop b r ihb ih =>
    obtain ⟨hn, hb, hr⟩ := hp
    have hunits : b.units ≠ nil := by
      intro h
      have hb' := hb.pass_units hw
      rw [h, pass_nil] at hb'
      exact hn hb'.symm
    rw [units, withoutEmptyLoops_loop, ihb hb, ih hr, keepLoop_of_ne_nil hunits]

/-- A normal program is read back in units. -/
theorem IsNormal.parseText_text (hw : policies.cell = .wrap) (hp : p.IsNormal policies) :
    parseText p.text = .ok p.units := by
  rw [Program.parseText_text, hp.withoutEmptyLoops_units hw]

/-- Optimizing a normal program in units gives the program back. -/
theorem IsNormal.optimize_units (hw : policies.cell = .wrap) (hp : p.IsNormal policies) :
    p.units.optimize policies .untilStable = p := by
  rw [optimize_eq_canonical hw, ← canonical_pass hw, hp.pass_units hw, hp.canonical_eq]

end Program

/-- **Printing loses nothing of an optimized program** where cells wrap, with
either policy of the tape. What a program that a pass leaves alone is printed
as is accepted, and one pass over what is read back gives the program again.
So two such programs that are printed alike are the same, and compiling the
text of a compiled program comes to what compiling its source came to, be it
a program or an error, for all options without a limit on the passes. -/
theorem pass_parseText_text (tape : Overflow) :
    (∀ p : Program, p.pass ⟨tape, .wrap⟩ = p →
      ∃ q, Program.parseText p.text = .ok q ∧ q.pass ⟨tape, .wrap⟩ = p) ∧
    (∀ p q : Program, p.pass ⟨tape, .wrap⟩ = p → q.pass ⟨tape, .wrap⟩ = q → p.text = q.text →
      p = q) ∧
    ∀ (o : Options) (source : List Reply), o.policies = ⟨tape, .wrap⟩ →
      o.optimization = some (.ofNat 0) →
      (o.compileSource source >>= fun p => o.compileText p.text) = o.compileSource source := by
  have hback : ∀ p : Program, p.pass ⟨tape, .wrap⟩ = p →
      Program.parseText p.text = .ok p.units ∧ p.units.pass ⟨tape, .wrap⟩ = p := by
    intro p hp
    have hn := Program.IsStable.isNormal hp
    exact ⟨hn.parseText_text rfl, hn.pass_units rfl⟩
  refine ⟨fun p hp => ⟨_, hback p hp⟩, ?_, ?_⟩
  · intro p q hp hq htext
    obtain ⟨hparse, hpass⟩ := hback p hp
    obtain ⟨hparse', hpass'⟩ := hback q hq
    rw [htext, hparse'] at hparse
    rw [← hpass, ← Except.ok.inj hparse, hpass']
  · intro o source hpolicies ho
    have hcompile : ∀ p : Program, o.compile p = p.optimize ⟨tape, .wrap⟩ .untilStable := by
      intro p
      rw [Options.compile, ho, hpolicies]
      rfl
    unfold Options.compileSource
    cases Program.ofReplies source with
    | error e => rfl
    | ok p =>
      have hn : (p.optimize ⟨tape, .wrap⟩ .untilStable).IsNormal ⟨tape, .wrap⟩ :=
        (Program.isStable_optimize p).isNormal
      change o.compileText (o.compile p).text = .ok (o.compile p)
      rw [Options.compileText, hcompile p, hn.parseText_text rfl]
      exact congrArg Except.ok ((hcompile _).trans (hn.optimize_units rfl))

/-- Goes two cells back and three on, changes the cell by `-56`, and counts up
by half of what a cell holds. -/
def backAndOn : Program :=
  .act (.move (-2)) (.act (.move 3) (.act (.add 200) (.loop (.act (.add 128) .nil) .nil)))

/-- On a clamped tape the two moves of `backAndOn` do not fuse. Going on by one
cell instead is printed otherwise. -/
theorem pass_parseText_text_backAndOn :
    backAndOn.pass ⟨.clamp, .wrap⟩ = backAndOn ∧
    (∃ q, Program.parseText backAndOn.text = .ok q ∧ q.pass ⟨.clamp, .wrap⟩ = backAndOn) ∧
    backAndOn.text ≠
      (Program.act (.move 1) (.act (.add 200) (.loop (.act (.add 128) .nil) .nil))).text ∧
    ∃ o : Options, o.policies = ⟨.clamp, .wrap⟩ ∧ o.optimization = some (.ofNat 0) ∧
      (o.compileSource [.bytes [60], .bytes [62], .bytes [45]] >>= fun p => o.compileText p.text) =
        o.compileSource [.bytes [60], .bytes [62], .bytes [45]] := by
  obtain ⟨hback, hinjective, hcompile⟩ := pass_parseText_text .clamp
  refine ⟨rfl, hback _ rfl, fun htext => ?_, ?_⟩
  · have heq := hinjective _ _ rfl rfl htext
    cases heq
  · exact ⟨{ Options.default with policies := ⟨.clamp, .wrap⟩, optimization := some (.ofNat 0) },
      rfl, rfl, hcompile _ _ rfl rfl⟩

end Brainfuck
