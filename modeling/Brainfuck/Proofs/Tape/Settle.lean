import Brainfuck.Program.Normal
import Brainfuck.Tape
/-!
# Where an amount settles

The cursor of a tape and the value of a cell are both integers kept in a
range from zero on, by wrapping or by clamping. `Overflow.settle` is that
rule, and going right or left, adding and subtracting are all instances of
it: a move is `Tape.moved` and a change of a cell `Tape.changed`, with the
amount's sign for its direction, and neither can fail.

`moved_moved` and `changed_changed` are what fusing rests on: two amounts
that fuse under the policy that is assumed settle where their sum does,
under every policy that the assumption admits.
-/

namespace Brainfuck

namespace Overflow

/-- Where an integer settles among the `bound` integers from zero on. -/
def settle (policy : Overflow) (bound value : Int) : Int :=
  match policy with
  | wrap => value % bound
  | clamp => max 0 (min (bound - 1) value)

variable {policy : Overflow} {bound : Int}

theorem settle_nonneg (h : 0 < bound) (value : Int) : 0 ≤ policy.settle bound value := by
  cases policy
  · exact Int.emod_nonneg _ (by omega)
  · exact Int.le_max_left _ _

theorem settle_lt (h : 0 < bound) (value : Int) : policy.settle bound value < bound := by
  cases policy
  · exact Int.emod_lt_of_pos _ h
  · simp only [settle]
    omega

/-- The value of a cell settles among the bytes. -/
theorem settle_byte (policy : Overflow) (value : Int) :
    0 ≤ policy.settle 256 value ∧ policy.settle 256 value < 256 :=
  ⟨settle_nonneg (by decide) value, settle_lt (by decide) value⟩

theorem settle_of_lt {value : Int} (h₀ : 0 ≤ value) (h₁ : value < bound) :
    policy.settle bound value = value := by
  cases policy
  · exact Int.emod_eq_of_lt h₀ h₁
  · simp only [settle]
    omega

/-- Two amounts that point the same way, as far as they point anywhere. -/
def Aligned (x y : Int) : Prop := (0 ≤ x ∧ 0 ≤ y) ∨ (x ≤ 0 ∧ y ≤ 0)

theorem settle_wrap_add (value x : Int) :
    wrap.settle bound (wrap.settle bound value + x) = wrap.settle bound (value + x) :=
  Int.emod_add_emod _ _ _

/-- **Amounts that do not cancel settle where their sum does**, also where
the first of them is cut short at a bound. -/
theorem settle_clamp_add {value x y : Int} (h₀ : 0 ≤ value) (h₁ : value < bound)
    (h : Aligned x y) :
    clamp.settle bound (clamp.settle bound (value + x) + y) =
      clamp.settle bound (value + (x + y)) := by
  simp only [settle]
  -- what is cut off on the way out, the second amount would only have carried further out
  rcases h with ⟨hx, hy⟩ | ⟨hx, hy⟩ <;> omega

theorem settle_add {value x y : Int} (h₀ : 0 ≤ value) (h₁ : value < bound)
    (h : policy = wrap ∨ Aligned x y) :
    policy.settle bound (policy.settle bound (value + x) + y) =
      policy.settle bound (value + (x + y)) := by
  cases policy with
  | wrap => rw [settle_wrap_add, Int.add_assoc]
  | clamp =>
    rcases h with h | h
    · cases h
    · exact settle_clamp_add h₀ h₁ h

/-! ## The operations settle -/

theorem right_eq {size cursor : Nat} {shift : Int} (hc : cursor < size) (hs : 0 ≤ shift) :
    policy.right size cursor shift = (policy.settle size (cursor + shift)).toNat := by
  cases policy
  · rw [right, settle, addMod_eq (by omega)]
  · simp only [right, settle]
    omega

theorem left_eq {size cursor : Nat} {shift : Int} (hc : cursor < size) (hs : 0 ≤ shift) :
    policy.left size cursor shift = (policy.settle size (cursor - shift)).toNat := by
  cases policy
  · rw [left, settle, subMod_eq (by omega)]
  · simp only [left, settle]
    omega

/-- A sum settles, unless a clamped cell is left below zero: there it is cut
off at the largest value only. -/
theorem sum_eq {value amount : Int} (h : policy = .wrap ∨ 0 ≤ value + amount) :
    policy.sum value amount = policy.settle 256 (value + amount) := by
  cases policy with
  | wrap => exact addMod_eq (by decide) value amount
  | clamp =>
    have h₀ : 0 ≤ value + amount := h.resolve_left (by decide)
    simp only [sum, settle, cellMax]
    omega

/-- A difference settles, unless a clamped cell is left above its largest
value: there it is cut off at zero only. -/
theorem difference_eq {value amount : Int} (h : policy = .wrap ∨ value - amount ≤ 255) :
    policy.difference value amount = policy.settle 256 (value - amount) := by
  cases policy with
  | wrap => exact subMod_eq (by decide) value amount
  | clamp =>
    have h₁ : value - amount ≤ 255 := h.resolve_left (by decide)
    simp only [difference, settle]
    omega

end Overflow

/-! ## Signed amounts -/

theorem signed_zero : signed 0 = 0 := rfl

theorem signed_eq (d : UInt8) :
    signed d = if 128 ≤ (d.toNat : Int) then (d.toNat : Int) - 256 else d.toNat := rfl

theorem signed_bounds (d : UInt8) : -128 ≤ signed d ∧ signed d ≤ 127 := by
  have := d.toNat_lt
  rw [signed_eq]
  omega

/-- The signed amount of a sum is the sum of the amounts, up to the size of
a byte. -/
theorem signed_add_emod (d e : UInt8) : signed (d + e) % 256 = (signed d + signed e) % 256 := by
  have := d.toNat_lt
  have := e.toNat_lt
  rw [signed_eq, signed_eq, signed_eq, UInt8.toNat_add]
  omega

/-- Where the sum of two amounts is an amount, it is the amount of the sum. -/
theorem signed_add {d e : UInt8} (h₀ : -128 ≤ signed d + signed e)
    (h₁ : signed d + signed e ≤ 127) : signed (d + e) = signed d + signed e := by
  have := signed_bounds (d + e)
  have := signed_add_emod d e
  omega

/-! ## What fuses -/

/-- **Two moves fuse into their sum**, and clamped only where they do not
cancel. -/
theorem fuseMoves?_eq_some {policy : Overflow} {x y z : Int}
    (h : fuseMoves? policy x y = some z) :
    z = x + y ∧ (policy = .wrap ∨ Overflow.Aligned x y) := by
  cases policy with
  | wrap =>
    cases h
    exact ⟨rfl, Or.inl rfl⟩
  | clamp =>
    simp only [fuseMoves?] at h
    unfold Overflow.Aligned
    -- nothing to the left, nothing to the right, and then two that point the same way
    split at h
    · cases h
      omega
    split at h
    · cases h
      omega
    split at h
    · rename_i hw
      rw [Action.sameWay_iff] at hw
      cases h
      omega
    · cases h

/-- **Two adds fuse into their sum**, and clamped only where they do not
cancel and the sum of their amounts is an amount. -/
theorem fuseAdds?_eq_some {policy : Overflow} {d e f : UInt8}
    (h : fuseAdds? policy d e = some f) :
    f = d + e ∧ (policy = .wrap ∨
      (Overflow.Aligned (signed d) (signed e) ∧ signed f = signed d + signed e)) := by
  cases policy with
  | wrap =>
    cases h
    exact ⟨rfl, Or.inl rfl⟩
  | clamp =>
    simp only [fuseAdds?] at h
    unfold Overflow.Aligned
    split at h
    · rename_i hd
      cases h
      subst hd
      simp only [signed_zero, UInt8.zero_add, true_and]
      omega
    split at h
    · rename_i he
      cases h
      subst he
      simp only [signed_zero, UInt8.add_zero, true_and]
      omega
    split at h
    · rename_i hw
      obtain ⟨hw, h₀, h₁⟩ := hw
      rw [Action.sameWay_iff] at hw
      cases h
      -- the bounds are those of an amount, so the byte of the sum has it
      refine ⟨rfl, Or.inr ⟨?_, signed_add h₀ h₁⟩⟩
      omega
    · cases h

/-! ## Tapes -/

namespace Tape

/-- The tape after a move, to the left if negative. -/
def moved (policy : Overflow) (shift : Int) (t : Tape) : Tape :=
  ⟨t.cells, (policy.settle t.size (t.cursor + shift)).toNat, by
    have hs : (0 : Int) < t.size := by exact_mod_cast t.size_pos
    have := policy.settle_nonneg hs (t.cursor + shift)
    have := policy.settle_lt hs (t.cursor + shift)
    change _ < t.size
    omega⟩

/-- The tape with an integer settled into the current cell. -/
def settled (policy : Overflow) (value : Int) (t : Tape) : Tape :=
  t.put (UInt8.ofNat (policy.settle 256 value).toNat)

/-- The tape after a change of the current cell, down if negative. -/
def changed (policy : Overflow) (delta : UInt8) (t : Tape) : Tape :=
  t.put (UInt8.ofNat (policy.settle 256 (t.current.toNat + signed delta)).toNat)

theorem cursor_moved (policy : Overflow) (shift : Int) (t : Tape) :
    (t.moved policy shift).cursor = (policy.settle t.size (t.cursor + shift)).toNat := rfl

@[simp] theorem size_moved (policy : Overflow) (shift : Int) (t : Tape) :
    (t.moved policy shift).size = t.size := rfl

@[simp] theorem put_put (v w : UInt8) (t : Tape) : (t.put v).put w = t.put w := by
  cases t
  simp [put]

@[simp] theorem put_current (t : Tape) : t.put t.current = t := by
  cases t
  simp [put, current]

@[simp] theorem moved_zero (policy : Overflow) (t : Tape) : t.moved policy 0 = t := by
  have hc : t.cursor < t.size := t.cursor_lt
  ext1
  · rfl
  · rw [cursor_moved, Overflow.settle_of_lt (by omega) (by omega)]
    simp

@[simp] theorem changed_zero (policy : Overflow) (t : Tape) : t.changed policy 0 = t := by
  have := t.current.toNat_lt
  rw [changed, signed_zero, Overflow.settle_of_lt (by omega) (by omega)]
  simp

/-- Two moves come to one by their sum, clamped only where they do not
cancel. -/
theorem moved_add {policy : Overflow} {x y : Int} (h : policy = .wrap ∨ Overflow.Aligned x y)
    (t : Tape) : (t.moved policy x).moved policy y = t.moved policy (x + y) := by
  have hc : t.cursor < t.size := t.cursor_lt
  have h₀ := policy.settle_nonneg (show (0 : Int) < t.size by omega) (t.cursor + x)
  ext1
  · rfl
  · rw [cursor_moved, cursor_moved, cursor_moved, size_moved, Int.toNat_of_nonneg h₀,
      Overflow.settle_add (by omega) (by omega) h]

/-- **Two moves that fuse come to the fused one**, where the tape wraps if
the fusing assumes it. -/
theorem moved_moved {assumed actual : Overflow} (h : assumed = .wrap → actual = .wrap)
    {x y z : Int} (hf : fuseMoves? assumed x y = some z) (t : Tape) :
    (t.moved actual x).moved actual y = t.moved actual z := by
  obtain ⟨rfl, hd⟩ := fuseMoves?_eq_some hf
  exact moved_add (hd.imp_left h) t

theorem current_settled (policy : Overflow) (value : Int) (t : Tape) :
    ((t.settled policy value).current.toNat : Int) = policy.settle 256 value := by
  obtain ⟨h₀, h₁⟩ := policy.settle_byte value
  rw [settled, current_put, UInt8.toNat_ofNat']
  omega

/-- A change settles by the signed amount. -/
theorem changed_eq_settled (policy : Overflow) (delta : UInt8) (t : Tape) :
    t.changed policy delta = t.settled policy (t.current.toNat + signed delta) := rfl

theorem current_changed (policy : Overflow) (delta : UInt8) (t : Tape) :
    ((t.changed policy delta).current.toNat : Int) =
      policy.settle 256 (t.current.toNat + signed delta) :=
  current_settled policy _ t

/-- **Two changes that fuse come to the fused one**, where the cell wraps if
the fusing assumes it. -/
theorem changed_changed {assumed actual : Overflow} (h : assumed = .wrap → actual = .wrap)
    {d e f : UInt8} (hf : fuseAdds? assumed d e = some f) (t : Tape) :
    (t.changed actual d).changed actual e = t.changed actual f := by
  obtain ⟨rfl, hd⟩ := fuseAdds?_eq_some hf
  have hv := t.current.toNat_lt
  -- the amounts add up to that of the sum where the cell clamps, and up to 256 where it wraps
  have hsum : actual.settle 256 (actual.settle 256 (t.current.toNat + signed d) + signed e) =
      actual.settle 256 (t.current.toNat + signed (d + e)) := by
    cases actual with
    | wrap =>
      have := signed_add_emod d e
      rw [Overflow.settle_wrap_add, Overflow.settle, Overflow.settle]
      omega
    | clamp =>
      rcases hd with hd | ⟨hd, hs⟩
      · cases h hd
      · rw [hs, Overflow.settle_add (by omega) (by omega) (Or.inr hd)]
  rw [changed, current_changed, hsum, changed, put_put, changed]

/-- The tape after the current cell is raised by an amount, or lowered if the
amount is negative. -/
def raised (policy : Overflow) (amount : Int) (t : Tape) : Tape :=
  t.put (UInt8.ofNat (policy.settle 256 (t.current.toNat + amount)).toNat)

theorem raised_zero (policy : Overflow) (t : Tape) : t.raised policy 0 = t :=
  t.changed_zero policy

/-- Two amounts that do not cancel come to their sum. -/
theorem raised_add {policy : Overflow} {x y : Int} (h : Overflow.Aligned x y) (t : Tape) :
    (t.raised policy x).raised policy y = t.raised policy (x + y) := by
  have hv := t.current.toNat_lt
  have hx : ((t.raised policy x).current.toNat : Int) = policy.settle 256 (t.current.toNat + x) :=
    current_settled policy _ t
  rw [raised, hx, raised, put_put, Overflow.settle_add (by omega) (by omega) (Or.inr h), raised]

end Tape

end Brainfuck
