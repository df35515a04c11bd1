import Brainfuck.Proofs.Printing.Effect
import Brainfuck.Proofs.Printing.RoundTrip
/-!
# Printed programs mean the same

What is read back of a printed program is the program in units without its
empty loops. The units do what the actions do, and leaving out empty loops
can only let a run end that was caught in one of them. So the program that is
read back follows the one that was printed, and where no loop is printed as
one that the parser leaves out (`Program.PrintsLoops`) they follow each
other.
-/

namespace Brainfuck

variable {σ ε : Type} {device : Device (StateM σ) ε}

namespace Program

/-- No loop is printed as one that the parser leaves out: what its body is
printed as cannot be erased to nothing. -/
def PrintsLoops : Program → Prop
  | nil => True
  | act _ r => PrintsLoops r
  | loop b r => ¬ ErasesTo b.symbols [] ∧ PrintsLoops b ∧ PrintsLoops r

/-- A body that is left with nothing is printed as what can be erased. -/
theorem erasesTo_nil {b : Program} (h : b.units.withoutEmptyLoops = nil) :
    ErasesTo b.symbols [] := by
  have he := b.derives_symbols.erasesTo
  rwa [h] at he

/-- Then nothing is left out of what is read back. -/
theorem PrintsLoops.withoutEmptyLoops_units {p : Program} (h : p.PrintsLoops) :
    p.units.withoutEmptyLoops = p.units := by
  induction p with
  | nil => rfl
  | act a r ih => rw [units, withoutEmptyLoops_acts, ih h]
  | loop b r ihb ih =>
    obtain ⟨hloop, hb, hr⟩ := h
    have hkeep : b.units.withoutEmptyLoops ≠ nil := fun hn => hloop (erasesTo_nil hn)
    rw [units, withoutEmptyLoops_loop, keepLoop_of_ne_nil hkeep, ihb hb, ih hr]

end Program

/-- **Printing and reading back preserves runs.** What a program is printed
as is accepted, and where the program ends, the one that is read back ends
with the same failure, if any, the same cells and cursor and the same calls
of the device; and if no loop is printed as one that the parser leaves out,
either of them ends exactly where the other does. -/
theorem parseText_text_preserves_run (policies : Policies) (p : Program) :
    ∃ q, Program.parseText p.text = .ok q ∧
      (∀ machine (s : σ) outcome t,
        Ends policies device.recorded (.start p machine) ([], s) outcome t →
        EndsAlike policies device.recorded (.start q machine) ([], s) outcome t) ∧
      (p.PrintsLoops → ∀ machine (s : σ) outcome t,
        EndsAlike policies device.recorded (.start p machine) ([], s) outcome t ↔
          EndsAlike policies device.recorded (.start q machine) ([], s) outcome t) := by
  have hunits : Follows policies device.recorded p p.units := .units p
  have hread : Follows policies device.recorded p p.units.withoutEmptyLoops :=
    hunits.trans (.withoutEmptyLoops p.units)
  refine ⟨_, p.parseText_text, ?_, ?_⟩
  · intro machine s outcome t he
    exact hread.endsAlike ⟨outcome, ⟨rfl, rfl⟩, he⟩
  · intro hp machine s outcome t
    rw [hp.withoutEmptyLoops_units]
    exact ⟨hunits.endsAlike, (Follows.of_units p).endsAlike⟩

/-- Reads a character, writes while it counts down by two, and goes three
cells back. -/
def downByTwo : Program :=
  .act .input (.loop (.act (.add 254) (.act .output .nil)) (.act (.move (-3)) .nil))

/-- On clamped cells `downByTwo` ends beyond zero, on a tape of two cells,
and so does what is read back of it. -/
theorem parseText_text_preserves_run_downByTwo :
    Ends ⟨.wrap, .clamp⟩ Buffer.device.recorded
      (.start downByTwo ⟨.blank 2 (by decide), 0⟩) ([], ⟨['\x03'], ""⟩)
      (.finished ⟨⟨#[0, 0], 1, by decide⟩, 7⟩)
      ([.write '\x00' (.ok ()), .write '\x01' (.ok ()), .read (.ok '\x03')],
        ⟨[], ("".push '\x01').push '\x00'⟩) ∧
    downByTwo.PrintsLoops ∧
    ∃ q, Program.parseText downByTwo.text = .ok q ∧
      EndsAlike ⟨.wrap, .clamp⟩ Buffer.device.recorded
        (.start q ⟨.blank 2 (by decide), 0⟩) ([], ⟨['\x03'], ""⟩)
        (.finished ⟨⟨#[0, 0], 1, by decide⟩, 7⟩)
        ([.write '\x00' (.ok ()), .write '\x01' (.ok ()), .read (.ok '\x03')],
          ⟨[], ("".push '\x01').push '\x00'⟩) ∧
      ∀ outcome t,
        EndsAlike ⟨.wrap, .clamp⟩ Buffer.device.recorded
          (.start downByTwo ⟨.blank 2 (by decide), 0⟩) ([], ⟨['\x03'], ""⟩) outcome t ↔
        EndsAlike ⟨.wrap, .clamp⟩ Buffer.device.recorded
          (.start q ⟨.blank 2 (by decide), 0⟩) ([], ⟨['\x03'], ""⟩) outcome t := by
  have hends : Ends ⟨.wrap, .clamp⟩ Buffer.device.recorded
      (.start downByTwo ⟨.blank 2 (by decide), 0⟩) ([], ⟨['\x03'], ""⟩)
      (.finished ⟨⟨#[0, 0], 1, by decide⟩, 7⟩)
      ([.write '\x00' (.ok ()), .write '\x01' (.ok ()), .read (.ok '\x03')],
        ⟨[], ("".push '\x01').push '\x00'⟩) := ⟨20, rfl⟩
  have hprints : downByTwo.PrintsLoops := by
    refine ⟨fun he => ?_, trivial, trivial⟩
    have hn := he.eq_of_none_left (by decide)
    cases hn
  obtain ⟨q, hq, halike, hiff⟩ :=
    @parseText_text_preserves_run _ _ Buffer.device ⟨.wrap, .clamp⟩ downByTwo
  exact ⟨hends, hprints, q, hq, halike _ _ _ _ hends, fun outcome t => hiff hprints _ _ outcome t⟩

end Brainfuck
