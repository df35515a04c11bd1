import Brainfuck.Proofs.Execution.Symmetry
/-!
# A wrapping tape has no first cell

Rotating a tape carries its cells around, all by the same number, and the
cursor with them (`Tape.rotated`, `Tape.isRotation_rotated`). The current
cell stays under the cursor, what is put there may as well be put there
beforehand (`Tape.put_rotated`), and where the tape wraps so may a move be
made beforehand (`Tape.moved_rotated`). So rotating is a symmetry of runs:
`run_rotated`.
-/

namespace Brainfuck

variable {σ ε : Type}

namespace Tape

/-! ## Around the tape -/

/-- The cell that an integer counts to, around the tape. -/
def place (t : Tape) (i : Int) : Fin t.cells.size :=
  ⟨(i % t.size).toNat, by
    have hs : (0 : Int) < t.size := by exact_mod_cast t.size_pos
    have := Int.emod_lt_of_pos i hs
    change _ < t.size
    omega⟩

theorem place_eq (t : Tape) (i : Int) : ((t.place i : Nat) : Int) = i % t.size := by
  have hs : (t.size : Int) ≠ 0 := by exact_mod_cast Nat.ne_of_gt t.size_pos
  exact Int.toNat_of_nonneg (Int.emod_nonneg i hs)

/-- What is carried to a cell comes from the cell that lies as far behind. -/
theorem place_add_eq_iff {t : Tape} {i j : Nat} (hi : i < t.size) (hj : j < t.size) (r : Int) :
    (t.place (i + r) : Nat) = j ↔ i = (t.place (j - r) : Nat) := by
  rw [← Int.ofNat_inj, ← Int.ofNat_inj, place_eq, place_eq]
  constructor
  · intro h
    rw [← h, Int.emod_sub_emod, Int.add_sub_cancel, Int.emod_eq_of_lt (by omega) (by omega)]
  · intro h
    rw [h, Int.emod_add_emod, Int.sub_add_cancel, Int.emod_eq_of_lt (by omega) (by omega)]

/-! ## Rotating -/

/-- The tape with its cells and its cursor carried around by a number of
cells. -/
def rotated (r : Int) (t : Tape) : Tape :=
  ⟨Array.ofFn fun i : Fin t.cells.size => t.cells[t.place (i - r)], t.place (t.cursor + r), by
    simp⟩

/-- Each cell `i` of the first tape is cell `i + r` of the second, counted
around the tape, and the cursors are on the same cell. -/
structure IsRotation (r : Int) (t t' : Tape) : Prop where
  size : t'.size = t.size
  cursor : (t'.cursor : Int) = (t.cursor + r) % t.size
  cells : ∀ i, i < t.size → t'.cells[((i + r) % t.size).toNat]? = t.cells[i]?

@[simp] theorem size_rotated (r : Int) (t : Tape) : (t.rotated r).size = t.size := by
  simp [rotated, size]

theorem cursor_rotated (r : Int) (t : Tape) :
    ((t.rotated r).cursor : Int) = (t.cursor + r) % t.size :=
  place_eq t _

theorem getElem?_rotated {t : Tape} {i : Nat} (h : i < t.size) (r : Int) :
    (t.rotated r).cells[i]? = t.cells[(t.place (i - r) : Nat)]? := by
  have hi : i < t.cells.size := h
  simp [rotated, hi]

/-- A rotated tape is a rotation of the tape. -/
theorem isRotation_rotated (r : Int) (t : Tape) : IsRotation r t (t.rotated r) where
  size := size_rotated r t
  cursor := cursor_rotated r t
  cells i hi := by
    have hp : (t.place (i + r) : Nat) < t.size := (t.place (i + r)).isLt
    have hback : i = (t.place ((t.place (i + r) : Nat) - r) : Nat) :=
      (place_add_eq_iff hi hp r).1 rfl
    change (t.rotated r).cells[(t.place (i + r) : Nat)]? = _
    rw [getElem?_rotated hp, ← hback]

/-! ## What a rotation respects -/

theorem getElem?_put {t : Tape} {i : Nat} (h : i < t.size) (v : UInt8) :
    (t.put v).cells[i]? = if t.cursor = i then some v else t.cells[i]? := by
  obtain ⟨cells, cursor, hc⟩ := t
  simp only [put, Array.getElem?_set]

/-- The current cell stays under the cursor. -/
theorem current_rotated (r : Int) (t : Tape) : (t.rotated r).current = t.current := by
  have hcell : (t.rotated r).cells[(t.rotated r).cursor]? = t.cells[t.cursor]? :=
    (isRotation_rotated r t).cells t.cursor t.cursor_lt
  rw [getElem?_cursor, getElem?_cursor] at hcell
  exact Option.some.inj hcell

/-- What is put under the cursor is carried with it. -/
theorem put_rotated (v : UInt8) (r : Int) (t : Tape) :
    (t.rotated r).put v = (t.put v).rotated r := by
  ext1
  · refine Array.ext_getElem? fun i => ?_
    by_cases hi : i < t.size
    · -- the cell that is put is found where the cursor is carried to, and only there
      have hplace : ((t.put v).place (i - r) : Nat) = t.place (i - r) := by
        simp only [place, size_put]
      have hcursor : (t.rotated r).cursor = i ↔ t.cursor = (t.place (i - r) : Nat) :=
        place_add_eq_iff t.cursor_lt hi r
      rw [getElem?_put (by rwa [size_rotated]), getElem?_rotated hi,
        getElem?_rotated (by rwa [size_put]), hplace, getElem?_put (t.place (i - r)).isLt]
      simp only [hcursor]
    · have hnone (t' : Tape) (ht : t'.size = t.size) : t'.cells[i]? = none :=
        Array.getElem?_eq_none (show t'.size ≤ i by omega)
      rw [hnone _ (by simp), hnone _ (by simp)]
  · have hcursor : (((t.put v).rotated r).cursor : Int) = (t.rotated r).cursor := by
      rw [cursor_rotated, cursor_rotated, cursor_put, size_put]
    rw [cursor_put]
    exact_mod_cast hcursor.symm

/-- **On a wrapping tape a move is carried around with the cursor.** -/
theorem moved_rotated (shift r : Int) (t : Tape) :
    (t.rotated r).moved .wrap shift = (t.moved .wrap shift).rotated r := by
  ext1
  · rfl
  · have hcursor : (((t.rotated r).moved .wrap shift).cursor : Int) =
        ((t.moved .wrap shift).rotated r).cursor := by
      rw [cursor_moved_eq, cursor_rotated, cursor_rotated, cursor_moved_eq, size_rotated,
        size_moved]
      simp only [Overflow.settle, Int.emod_add_emod, Int.add_right_comm]
    exact_mod_cast hcursor

end Tape

/-! ## Runs -/

/-- The machine on the rotated tape. -/
def Machine.rotated (r : Int) (machine : Machine) : Machine :=
  ⟨machine.tape.rotated r, machine.steps⟩

/-- **Rotating is a symmetry** where the tape wraps, with either policy of
its cells. -/
theorem Machine.isSymmetry_rotated (cell : Overflow) (r : Int) :
    IsSymmetry ⟨.wrap, cell⟩ (rotated r) where
  current machine := Tape.current_rotated r machine.tape
  tick _ := rfl
  receive c machine := congrArg (Machine.mk · machine.steps) (Tape.put_rotated _ r machine.tape)
  silent a machine ha := by
    refine congrArg (Machine.mk · (machine.steps + 1)) ?_
    cases a with
    | move n => exact Tape.moved_rotated n r machine.tape
    | add d =>
      change (machine.tape.rotated r).changed cell d = (machine.tape.changed cell d).rotated r
      rw [Tape.changed, Tape.current_rotated, Tape.put_rotated, Tape.changed]
    | output | input => cases ha

/-- **On a wrapping tape no cell is special.** Carry all cells of a tape and
its cursor around it by the same number, negative or larger than the tape as
it may be. From the tape so rotated, and with either policy of the cells, the
run of any program has at every point made the same calls of the device with
the same answers. It has ended there exactly if the run from the tape itself
has, with the same failure, if any, and after the same number of
instructions, and the tape that it leaves is the other one rotated. -/
theorem run_rotated (cell : Overflow) (device : Device (StateM σ) ε) (p : Program)
    (machine : Machine) (s : σ) (r : Int) :
    (∀ t : Tape, t.IsRotation r (t.rotated r)) ∧
    (∀ fuel,
      runFor ⟨.wrap, cell⟩ device.recorded fuel (.start p (machine.rotated r)) ([], s) =
        Prod.map (Option.map (Outcome.map (Machine.rotated r))) id
          (runFor ⟨.wrap, cell⟩ device.recorded fuel (.start p machine) ([], s))) ∧
    ∀ outcome calls t,
      Ends ⟨.wrap, cell⟩ device.recorded (.start p (machine.rotated r)) ([], s) outcome
        (calls, t) ↔
      ∃ outcome', outcome = outcome'.map (Machine.rotated r) ∧
        Ends ⟨.wrap, cell⟩ device.recorded (.start p machine) ([], s) outcome' (calls, t) := by
  have hrotated : Machine.IsSymmetry ⟨.wrap, cell⟩ (Machine.rotated r) :=
    Machine.isSymmetry_rotated cell r
  refine ⟨Tape.isRotation_rotated r, ?_, ?_⟩
  · intro fuel
    exact hrotated.runFor fuel (.start p machine) ([], s)
  · intro outcome calls t
    exact hrotated.ends_iff (c := .start p machine)

/-- Four cells around a tape of three are one cell. -/
example : (⟨#[1, 2, 3], 2, by decide⟩ : Tape).rotated 4 = ⟨#[3, 1, 2], 0, by decide⟩ := rfl

end Brainfuck
