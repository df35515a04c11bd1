import Brainfuck.Device.Buffer
import Brainfuck.Proofs.Execution.Symmetry
/-!
# Policies and the size of the tape matter at the bounds only

An action stays inside if it leaves neither the tape nor the range of a cell
(`Action.StaysInside`). Then nothing wraps and nothing is clamped, so what it
does is the same under any policies, and further cells behind the tape make no
difference to it either (`Tape.moved_widened`, `Tape.changed_widened`).
Widening the tape keeps the view of a run, and along a run that stays inside
every action goes along with it, whatever the policies of the wider machine
are. What this comes to for the whole run is `same_inside_bounds`.
-/

namespace Brainfuck

variable {σ ε : Type}

/-! ## Staying inside -/

/-- An action leaves neither the tape nor the range of the current cell. -/
def Action.StaysInside (t : Tape) : Action → Prop
  | move n => 0 ≤ (t.cursor : Int) + n ∧ (t.cursor : Int) + n < t.size
  | add d => 0 ≤ (t.current.toNat : Int) + signed d ∧ (t.current.toNat : Int) + signed d ≤ 255
  | output => True
  | input => True

instance (t : Tape) : (a : Action) → Decidable (a.StaysInside t)
  | .move _ => inferInstanceAs (Decidable (_ ∧ _))
  | .add _ => inferInstanceAs (Decidable (_ ∧ _))
  | .output => .isTrue trivial
  | .input => .isTrue trivial

/-- Along the run every action that it comes to stays inside. -/
def Config.StaysInside (policies : Policies) (device : Device (StateM σ) ε) (c : Config) (s : σ) :
    Prop :=
  ∀ n c' u, Moves policies device n c s c' u →
    ∀ a r, c'.pending = .act a r → a.StaysInside c'.machine.tape

namespace Config.StaysInside

variable {policies : Policies} {device : Device (StateM σ) ε} {c c' : Config} {s s' : σ}

theorem of_step (ha : ∀ a r, c.pending = .act a r → a.StaysInside c.machine.tape)
    (hs : Config.step policies device c s = (.next c', s'))
    (h : c'.StaysInside policies device s') : c.StaysInside policies device s := by
  intro n c'' u hm
  cases hm with
  | refl => exact ha
  | head hs' hm =>
    rw [hs] at hs'
    cases hs'
    exact h _ c'' u hm

theorem of_ended {t : σ} {outcome : Outcome ε}
    (ha : ∀ a r, c.pending = .act a r → a.StaysInside c.machine.tape)
    (hs : Config.step policies device c s = (.ended outcome, t)) :
    c.StaysInside policies device s := by
  intro n c'' u hm
  cases hm with
  | refl => exact ha
  | head hs' hm =>
    rw [hs] at hs'
    cases hs'

end Config.StaysInside

/-! ## Wider tapes -/

namespace Tape

/-- The tape with further cells behind it. -/
def widened (more : Array UInt8) (t : Tape) : Tape :=
  ⟨t.cells ++ more, t.cursor, by
    have hc : t.cursor < t.cells.size := t.cursor_lt
    rw [Array.size_append]
    omega⟩

theorem size_widened (more : Array UInt8) (t : Tape) :
    (t.widened more).size = t.size + more.size :=
  Array.size_append

@[simp] theorem cursor_widened (more : Array UInt8) (t : Tape) :
    (t.widened more).cursor = t.cursor := rfl

/-- A tape whose cells begin with those of another one, with the cursor in the
same place, is that one with further cells. -/
theorem exists_eq_widened {t wide : Tape} (hcells : t.cells.toList <+: wide.cells.toList)
    (hcursor : wide.cursor = t.cursor) : ∃ more, wide = t.widened more := by
  obtain ⟨more, hmore⟩ := hcells
  refine ⟨more.toArray, ?_⟩
  ext1
  · apply Array.toList_inj.1
    change wide.cells.toList = (t.cells ++ more.toArray).toList
    rw [Array.toList_append, hmore]
  · exact hcursor

/-- The current cell is the same. -/
theorem current_widened (more : Array UInt8) (t : Tape) :
    (t.widened more).current = t.current := by
  obtain ⟨cells, cursor, hc⟩ := t
  exact Array.getElem_append_left hc

/-- What is put under the cursor is put in front of the further cells. -/
theorem put_widened (v : UInt8) (more : Array UInt8) (t : Tape) :
    (t.widened more).put v = (t.put v).widened more := by
  obtain ⟨cells, cursor, hc⟩ := t
  ext1
  · exact Array.set_append_left hc
  · rfl

variable {t : Tape}

/-- **A move that stays on the tape** comes to the same cell of a wider one,
with any policy. -/
theorem moved_widened {n : Int} (h : (Action.move n).StaysInside t) (policy policy' : Overflow)
    (more : Array UInt8) :
    (t.widened more).moved policy' n = (t.moved policy n).widened more := by
  obtain ⟨h₀, h₁⟩ := h
  have hwide : (t.cursor : Int) + n < (t.widened more).size := by
    rw [size_widened]
    omega
  ext1
  · rfl
  · have hcursor : (((t.widened more).moved policy' n).cursor : Int) =
        ((t.moved policy n).widened more).cursor := by
      rw [cursor_moved_eq, cursor_widened, cursor_widened, cursor_moved_eq,
        Overflow.settle_of_lt h₀ h₁, Overflow.settle_of_lt h₀ hwide]
    exact_mod_cast hcursor

/-- **A change that stays in the range of the cell** is the same with any
policy. -/
theorem changed_widened {d : UInt8} (h : (Action.add d).StaysInside t)
    (policy policy' : Overflow) (more : Array UInt8) :
    (t.widened more).changed policy' d = (t.changed policy d).widened more := by
  obtain ⟨h₀, h₁⟩ := h
  have hlt : (t.current.toNat : Int) + signed d < 256 := by omega
  rw [changed, changed, current_widened, put_widened, Overflow.settle_of_lt h₀ hlt,
    Overflow.settle_of_lt h₀ hlt]

end Tape

/-! ## Runs -/

/-- The machine on the tape with further cells. -/
def Machine.widened (more : Array UInt8) (machine : Machine) : Machine :=
  ⟨machine.tape.widened more, machine.steps⟩

/-- **Widening the tape keeps the view** of a run. -/
theorem Machine.keepsView_widened (more : Array UInt8) : KeepsView (widened more) where
  current machine := Tape.current_widened more machine.tape
  tick _ := rfl
  receive _ machine :=
    congrArg (Machine.mk · machine.steps) (Tape.put_widened _ more machine.tape)

/-- An action that stays inside goes along with it, whatever the policies. -/
theorem Action.StaysInside.goesAlong {a : Action} {machine : Machine}
    (h : a.StaysInside machine.tape) (policies policies' : Policies) (more : Array UInt8) :
    a.GoesAlong policies policies' (Machine.widened more) machine := by
  intro ha
  refine congrArg (Machine.mk · (machine.steps + 1)) ?_
  cases a with
  | move n => exact Tape.moved_widened h policies.tape policies'.tape more
  | add d => exact Tape.changed_widened h policies.cell policies'.cell more
  | output | input => cases ha

/-- **Policies and the size of the tape matter at the bounds only.** Let the
run of a program under wrapping stay inside: every move that it comes to
leaves the cursor on the tape, and every add leaves the current cell in the
range of a byte. Take any policies, and any tape that has the same cells and
perhaps further ones behind them, with the cursor in the same place. The run
from there has at every point made the same calls of the device with the same
answers. It has ended there exactly if the run under wrapping has, with the
same failure, if any, and after the same number of instructions, and its tape
is that of the run under wrapping with the further cells as they were. -/
theorem same_inside_bounds {device : Device (StateM σ) ε} {p : Program} {machine : Machine} {s : σ}
    (h : (Config.start p machine).StaysInside ⟨.wrap, .wrap⟩ device.recorded ([], s))
    (policies : Policies) {wide : Tape} (hcells : machine.tape.cells.toList <+: wide.cells.toList)
    (hcursor : wide.cursor = machine.tape.cursor) :
    ∃ more, wide = machine.tape.widened more ∧
      (∀ fuel,
        runFor policies device.recorded fuel (.start p ⟨wide, machine.steps⟩) ([], s) =
          Prod.map (Option.map (Outcome.map (Machine.widened more))) id
            (runFor ⟨.wrap, .wrap⟩ device.recorded fuel (.start p machine) ([], s))) ∧
      ∀ outcome calls t,
        Ends policies device.recorded (.start p ⟨wide, machine.steps⟩) ([], s) outcome
          (calls, t) ↔
        ∃ outcome', outcome = outcome'.map (Machine.widened more) ∧
          Ends ⟨.wrap, .wrap⟩ device.recorded (.start p machine) ([], s) outcome'
            (calls, t) := by
  obtain ⟨more, rfl⟩ := Tape.exists_eq_widened hcells hcursor
  have hgoes : ∀ n c' u, Moves ⟨.wrap, .wrap⟩ device.recorded n (.start p machine) ([], s) c' u →
      c'.GoesAlong ⟨.wrap, .wrap⟩ policies (Machine.widened more) :=
    fun n c' u hm a r hc => (h n c' u hm a r hc).goesAlong _ policies more
  have hrun : ∀ fuel, runFor policies device.recorded fuel
      ((Config.start p machine).map (Machine.widened more)) ([], s) = _ :=
    (Machine.keepsView_widened more).runFor hgoes
  exact ⟨more, rfl, hrun, fun outcome calls t => ends_map_iff hrun⟩

/-- Reads a character into the second cell and adds it to the first. -/
def readAndAdd : Program :=
  .act (.move 1) (.act .input (.loop (.act (.add 255) (.act (.move (-1)) (.act (.add 1)
    (.act (.move 1) .nil)))) (.act (.move (-1)) (.act .output .nil))))

/-- `readAndAdd` stays inside of two cells where it adds one to 253. So on
clamped cells and in front of a third one it does the same, and writes 254. -/
theorem same_inside_bounds_readAndAdd :
    (Config.start readAndAdd ⟨⟨#[253, 0], 0, by decide⟩, 0⟩).StaysInside ⟨.wrap, .wrap⟩
      Buffer.device.recorded ([], ⟨['\x01'], ""⟩) ∧
    Ends ⟨.clamp, .clamp⟩ Buffer.device.recorded
      (.start readAndAdd ⟨⟨#[253, 0, 7], 0, by decide⟩, 0⟩) ([], ⟨['\x01'], ""⟩)
      (.finished ⟨⟨#[254, 0, 7], 0, by decide⟩, 9⟩)
      ([.write '\xfe' (.ok ()), .read (.ok '\x01')], ⟨[], "".push '\xfe'⟩) := by
  have hinside : (Config.start readAndAdd ⟨⟨#[253, 0], 0, by decide⟩, 0⟩).StaysInside
      ⟨.wrap, .wrap⟩ Buffer.device.recorded ([], ⟨['\x01'], ""⟩) := by
    refine .of_step ?_ rfl <| .of_step ?_ rfl <| .of_step ?_ rfl <| .of_step ?_ rfl <|
      .of_step ?_ rfl <| .of_step ?_ rfl <| .of_step ?_ rfl <| .of_step ?_ rfl <|
      .of_step ?_ rfl <| .of_step ?_ rfl <| .of_ended ?_ rfl
    -- there is something to show only where an action comes next
    all_goals
      rintro a r h
      cases h <;> decide
  have hbegins : [253, 0] <+: (⟨#[253, 0, 7], 0, by decide⟩ : Tape).cells.toList := by decide
  obtain ⟨more, hwide, -, hends⟩ := same_inside_bounds hinside ⟨.clamp, .clamp⟩ hbegins rfl
  have hcells : #[253, 0] ++ #[7] = #[253, 0] ++ more := congrArg Tape.cells hwide
  obtain rfl : #[7] = more := (Array.append_right_inj _).1 hcells
  exact ⟨hinside, (hends _ _ _).2 ⟨.finished ⟨⟨#[254, 0], 0, by decide⟩, 9⟩, rfl, 20, rfl⟩⟩

end Brainfuck
