import Brainfuck.Proofs.Tape.Operations
import Mathlib.Algebra.Order.BigOperators.Group.List
import Mathlib.Algebra.Order.Ring.Int
/-!
# Operations in a row

What a row of moves and changes of cells comes to. Where tape and cells wrap,
in any order, the shifts add up modulo the size of the tape, and the amounts
that a cell receives while the cursor is on it add up modulo 256
(`performAll_wrap`).

Where they clamp this holds in one direction only, since what is cut off at a
bound is lost on the way back. In one direction it holds under either policy
(`performAll_operation`).

Both are inductions on the row. What a single operation does is
`IsMoveOrChange.cursor_eq` and `IsMoveOrChange.cell_eq` for the first, and
`Direction.perform_operation` for the second.
-/

namespace Brainfuck

namespace Tape

variable {policies : Policies} {o : Operation} {t t' : Tape}

namespace Operation

/-- Moves by a number of steps in their own direction, adds and subtracts by
any amount. -/
def IsMoveOrChange : Operation → Prop
  | moveLeft n => 0 ≤ n
  | moveRight n => 0 ≤ n
  | add _ => True
  | subtract _ => True
  | _ => False

instance (o : Operation) : Decidable o.IsMoveOrChange := by
  cases o <;> unfold IsMoveOrChange <;> infer_instance

/-- How far an operation goes to the right, and to the left if negative. -/
def shift : Operation → Int
  | moveLeft n => -n
  | moveRight n => n
  | _ => 0

/-- What an operation adds to the current cell, and subtracts if negative. -/
def amount : Operation → Int
  | add v => v
  | subtract v => -v
  | _ => 0

/-- Wrapping, no move by a number of steps and no change fails. -/
theorem IsMoveOrChange.not_fails (h : o.IsMoveOrChange) (t : Tape) (f : Fault) :
    ¬ o.Fails ⟨.wrap, .wrap⟩ t f := by
  cases o with
  | moveLeft n | moveRight n => exact fun hf => absurd hf.1 (Int.not_lt.2 h)
  | add v | subtract v => exact fun hf => nomatch hf.1.1
  | readText | writeChar | isNonzero | reset => cases h

/-- Wrapping, an operation puts the cursor where its shift leads. -/
theorem IsMoveOrChange.cursor_eq (h : o.IsMoveOrChange) (hl : o.Leaves ⟨.wrap, .wrap⟩ t t') :
    (t'.cursor : Int) = (t.cursor + o.shift) % t.size := by
  have hc : t.cursor < t.size := t.cursor_lt
  cases o with
  | moveLeft n | moveRight n => exact hl.2
  | add v | subtract v =>
    have hstay : (t.cursor : Int) = (t.cursor + 0) % t.size := by
      rw [Int.add_zero, Int.emod_eq_of_lt (by omega) (by omega)]
    rw [hl.1.cursor]
    exact hstay
  | readText | writeChar | isNonzero | reset => cases h

end Operation

/-- Where the current cell alone changes, and by an amount that wraps, every
cell changes by that amount if the cursor is on it. -/
theorem OnlyCurrent.cell_eq {x : Int} (h : t.OnlyCurrent t')
    (hx : (t'.current.toNat : Int) = (t.current.toNat + x) % 256) {i : Nat} {v : UInt8}
    (hv : t.cells[i]? = some v) : ∃ v', t'.cells[i]? = some v' ∧
      (v'.toNat : Int) = (v.toNat + if t.cursor = i then x else 0) % 256 := by
  by_cases hi : t.cursor = i
  · subst hi
    rw [getElem?_cursor, Option.some.injEq] at hv
    refine ⟨t'.current, ?_, ?_⟩
    · rw [← getElem?_cursor, h.cursor]
    · rw [hx, hv, if_pos rfl]
  · have hlt := v.toNat_lt
    refine ⟨v, (h.others i (Ne.symm hi)).trans hv, ?_⟩
    rw [if_neg hi]
    omega

/-- Wrapping, an operation changes the cell under the cursor by its amount,
and no other. -/
theorem Operation.IsMoveOrChange.cell_eq (h : o.IsMoveOrChange)
    (hl : o.Leaves ⟨.wrap, .wrap⟩ t t') {i : Nat} {v : UInt8} (hv : t.cells[i]? = some v) :
    ∃ v', t'.cells[i]? = some v' ∧
      (v'.toNat : Int) = (v.toNat + if t.cursor = i then o.amount else 0) % 256 := by
  cases o with
  | moveLeft n | moveRight n =>
    have hlt := v.toNat_lt
    refine ⟨v, (congrArg (·[i]?) hl.1).trans hv, ?_⟩
    change (v.toNat : Int) = (v.toNat + if t.cursor = i then 0 else 0) % 256
    rw [ite_self]
    omega
  | add x => exact hl.1.cell_eq hl.2 hv
  | subtract x => exact hl.1.cell_eq hl.2 hv
  | readText | writeChar | isNonzero | reset => cases h

/-! ## Rows -/

/-- Operations in a row, up to the first that fails. -/
def performAll (policies : Policies) : List Operation → EStateM Fault Tape Unit
  | [] => pure ()
  | o :: ops => do
    let _ ← o.perform policies
    performAll policies ops

/-- What operations in a row add to a cell while the cursor is on it, less what
they subtract from it. -/
def amountOn (policies : Policies) (i : Nat) : List Operation → Tape → Int
  | [], _ => 0
  | o :: ops, t =>
    (if t.cursor = i then o.amount else 0) + amountOn policies i ops (o.after policies t)

theorem performAll_cons {a : Answer} (h : o.perform policies t = .ok a t')
    (ops : List Operation) : performAll policies (o :: ops) t = performAll policies ops t' := by
  simp only [performAll, bind, EStateM.bind, h]

theorem Operation.after_of_perform {a : Answer} (h : o.perform policies t = .ok a t') :
    o.after policies t = t' := by
  rw [after, h]

/-- **Wrapping, operations add up.** In whatever order moves and changes of
cells come, none of them fails, the cursor goes as far as the shifts add up to,
and every cell changes by the amounts that come while the cursor is on it. -/
theorem performAll_wrap {ops : List Operation} (hops : ∀ o ∈ ops, o.IsMoveOrChange) (t : Tape) :
    ∃ t', performAll ⟨.wrap, .wrap⟩ ops t = .ok () t' ∧ t'.size = t.size ∧
      (t'.cursor : Int) = (t.cursor + (ops.map Operation.shift).sum) % t.size ∧
      ∀ i v, t.cells[i]? = some v → ∃ v', t'.cells[i]? = some v' ∧
        (v'.toNat : Int) = (v.toNat + amountOn ⟨.wrap, .wrap⟩ i ops t) % 256 := by
  induction ops generalizing t with
  | nil =>
    have hc : t.cursor < t.size := t.cursor_lt
    refine ⟨t, rfl, rfl, ?_, fun i v hv => ⟨v, hv, ?_⟩⟩
    · rw [List.map_nil, List.sum_nil, Int.add_zero, Int.emod_eq_of_lt (by omega) (by omega)]
    · have hlt := v.toNat_lt
      rw [amountOn]
      omega
  | cons o ops ih =>
    obtain ⟨ho, hops⟩ := List.forall_mem_cons.1 hops
    rcases Operation.perform_cases ⟨.wrap, .wrap⟩ o t with ⟨f, -, hf⟩ | ⟨a, t₁, hperform, hl, -⟩
    · exact absurd ((hf f).2 rfl) (ho.not_fails t f)
    obtain ⟨t', hall, hsize, hcursor, hcells⟩ := ih hops t₁
    refine ⟨t', (performAll_cons hperform ops).trans hall, hsize.trans hl.size_eq, ?_, ?_⟩
    · rw [hcursor, hl.size_eq, ho.cursor_eq hl, List.map_cons, List.sum_cons, Int.emod_add_emod,
        Int.add_assoc]
    · intro i v hv
      obtain ⟨v₁, hv₁, hstep⟩ := ho.cell_eq hl hv
      obtain ⟨v', hv', hrest⟩ := hcells i v₁ hv₁
      refine ⟨v', hv', ?_⟩
      rw [hrest, hstep, Int.emod_add_emod, Int.add_assoc, amountOn,
        Operation.after_of_perform hperform]

/-! ## One direction -/

/-- The four ways in which an amount counts. -/
inductive Direction where
  | left
  | right
  | up
  | down
  deriving DecidableEq, Repr

namespace Direction

/-- The operation by an amount in a direction. -/
def operation : Direction → Int → Operation
  | left => .moveLeft
  | right => .moveRight
  | up => .add
  | down => .subtract

/-- The tape after an amount in a direction. -/
def tapeAfter (policies : Policies) : Direction → Int → Tape → Tape
  | left, n, t => t.moved policies.tape (-n)
  | right, n, t => t.moved policies.tape n
  | up, n, t => t.raised policies.cell n
  | down, n, t => t.raised policies.cell (-n)

variable {d : Direction} {x y : Int}

/-- **An amount that is not negative counts in full** as far as the bound. -/
theorem perform_operation (policies : Policies) (d : Direction) (h : 0 ≤ x) (t : Tape) :
    (d.operation x).perform policies t = .ok .nothing (d.tapeAfter policies x t) := by
  have hv := t.current.toNat_lt
  cases d with
  | left => exact Operation.run_ok (moveLeft_eq h t)
  | right => exact Operation.run_ok (moveRight_eq h t)
  | up => exact Operation.run_ok (add_eq t (Or.inr (by omega)))
  | down => exact Operation.run_ok (subtract_eq t (Or.inr (by omega)))

theorem tapeAfter_zero (policies : Policies) (d : Direction) (t : Tape) :
    d.tapeAfter policies 0 t = t := by
  cases d with
  | left | right => exact t.moved_zero policies.tape
  | up | down => exact t.raised_zero policies.cell

/-- Two amounts in one direction come to their sum, whatever is cut off at a
bound. -/
theorem tapeAfter_add (policies : Policies) (d : Direction) (hx : 0 ≤ x) (hy : 0 ≤ y) (t : Tape) :
    d.tapeAfter policies y (d.tapeAfter policies x t) = d.tapeAfter policies (x + y) t := by
  cases d with
  | left =>
    have hback : (t.moved policies.tape (-x)).moved policies.tape (-y) =
        t.moved policies.tape (-x + -y) :=
      moved_add (Or.inr (Or.inr ⟨by omega, by omega⟩)) t
    rwa [← Int.neg_add] at hback
  | right => exact moved_add (Or.inr (Or.inl ⟨hx, hy⟩)) t
  | up => exact raised_add (Or.inl ⟨hx, hy⟩) t
  | down =>
    have hback : (t.raised policies.cell (-x)).raised policies.cell (-y) =
        t.raised policies.cell (-x + -y) :=
      raised_add (Or.inr ⟨by omega, by omega⟩) t
    rwa [← Int.neg_add] at hback

end Direction

/-- **In one direction operations add up**, under either policy and from every
tape. -/
theorem performAll_operation (policies : Policies) (d : Direction) {amounts : List Int}
    (h : ∀ n ∈ amounts, 0 ≤ n) (t : Tape) :
    performAll policies (amounts.map d.operation) t =
      .ok () (d.tapeAfter policies amounts.sum t) := by
  induction amounts generalizing t with
  | nil =>
    rw [List.sum_nil, d.tapeAfter_zero]
    rfl
  | cons n amounts ih =>
    obtain ⟨hn, h⟩ := List.forall_mem_cons.1 h
    have hsum : 0 ≤ amounts.sum := List.sum_nonneg h
    rw [List.map_cons, performAll_cons (d.perform_operation policies hn t), ih h,
      d.tapeAfter_add policies hn hsum, List.sum_cons]

/-- **What a row of operations comes to.** Where tape and cells wrap, moves by
any number of steps in their own direction, and adds and subtracts of any
amounts, in any order, are all carried out. The cursor ends where it started,
plus what it went right and less what it went left, modulo the size of the
tape; and each cell ends at its value, plus what was added and less what was
subtracted while the cursor was on it, modulo 256. Under any policies, those
that clamp included, any number of moves in one direction, and of adds or of
subtracts that are not negative, come to a single one by their sum. -/
theorem sequences_add_up (t : Tape) :
    (∀ ops : List Operation, (∀ o ∈ ops, o.IsMoveOrChange) →
      ∃ t', performAll ⟨.wrap, .wrap⟩ ops t = .ok () t' ∧ t'.size = t.size ∧
        (t'.cursor : Int) = (t.cursor + (ops.map Operation.shift).sum) % t.size ∧
        ∀ i v, t.cells[i]? = some v → ∃ v', t'.cells[i]? = some v' ∧
          (v'.toNat : Int) = (v.toNat + amountOn ⟨.wrap, .wrap⟩ i ops t) % 256) ∧
    ∀ (policies : Policies) (d : Direction) (amounts : List Int), (∀ n ∈ amounts, 0 ≤ n) →
      ∃ t', performAll policies (amounts.map d.operation) t = .ok () t' ∧
        (d.operation amounts.sum).perform policies t = .ok .nothing t' := by
  refine ⟨fun ops hops => performAll_wrap hops t, fun policies d amounts h => ?_⟩
  have hsum : 0 ≤ amounts.sum := List.sum_nonneg h
  exact ⟨_, performAll_operation policies d h t, d.perform_operation policies hsum t⟩

/-- Around both ends of three cells with amounts beyond a byte; and two adds
that a clamped cell cannot take in full. -/
theorem sequences_add_up_threeCells :
    (∃ t', performAll ⟨.wrap, .wrap⟩
        [.moveLeft 8, .add 300, .moveRight 4, .subtract 1000, .add (-3)]
        ⟨#[250, 7, 0], 2, by decide⟩ = .ok () t' ∧
      (t'.cursor : Int) = 1 ∧
      (∃ v', t'.cells[0]? = some v' ∧ (v'.toNat : Int) = (250 + 300) % 256) ∧
      ∃ v', t'.cells[1]? = some v' ∧ (v'.toNat : Int) = (7 - 1000 - 3) % 256) ∧
    ∃ t', performAll ⟨.wrap, .clamp⟩ [.add 4, .add 300] ⟨#[250, 7, 0], 0, by decide⟩ =
        .ok () t' ∧
      (Operation.add 304).perform ⟨.wrap, .clamp⟩ ⟨#[250, 7, 0], 0, by decide⟩ =
        .ok .nothing t' := by
  constructor
  · obtain ⟨t', hall, -, hcursor, hcells⟩ :=
      (sequences_add_up ⟨#[250, 7, 0], 2, by decide⟩).1
        [.moveLeft 8, .add 300, .moveRight 4, .subtract 1000, .add (-3)] (by decide)
    exact ⟨t', hall, hcursor, hcells 0 250 rfl, hcells 1 7 rfl⟩
  · exact (sequences_add_up ⟨#[250, 7, 0], 0, by decide⟩).2 ⟨.wrap, .clamp⟩ .up [4, 300]
      (by decide)

end Tape

end Brainfuck
