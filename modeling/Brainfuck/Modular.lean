/-!
# Arithmetic modulo a bound

Positions on a wrapping tape and values of a wrapping cell are added and
subtracted modulo a bound, with the floor remainder: for a positive
modulus the result lies in `[0, modulus)`, also for negative amounts.
-/

namespace Brainfuck

/-- The sum modulo a bound. -/
def addMod (first other modulus : Int) : Int := (first + other.fmod modulus).fmod modulus

/-- The difference modulo a bound. -/
def subMod (first other modulus : Int) : Int := (first - other.fmod modulus).fmod modulus

/-- Sum and difference, where the modulus is not zero. -/
def sumAndDifference? (first other modulus : Int) : Option (Int × Int) :=
  if modulus = 0 then none else some (addMod first other modulus, subMod first other modulus)

/-- The two reductions are one. -/
theorem addMod_eq {modulus : Int} (h : 0 < modulus) (first other : Int) :
    addMod first other modulus = (first + other) % modulus := by
  have hm : 0 ≤ modulus := by omega
  rw [addMod, Int.fmod_eq_emod_of_nonneg _ hm, Int.fmod_eq_emod_of_nonneg _ hm,
    Int.add_emod_emod]

theorem subMod_eq {modulus : Int} (h : 0 < modulus) (first other : Int) :
    subMod first other modulus = (first - other) % modulus := by
  have hm : 0 ≤ modulus := by omega
  rw [subMod, Int.fmod_eq_emod_of_nonneg _ hm, Int.fmod_eq_emod_of_nonneg _ hm,
    Int.sub_emod_emod]

theorem addMod_nonneg {modulus : Int} (h : 0 < modulus) (first other : Int) :
    0 ≤ addMod first other modulus := by
  rw [addMod_eq h]
  exact Int.emod_nonneg _ (by omega)

theorem addMod_lt {modulus : Int} (h : 0 < modulus) (first other : Int) :
    addMod first other modulus < modulus := by
  rw [addMod_eq h]
  exact Int.emod_lt_of_pos _ h

theorem subMod_nonneg {modulus : Int} (h : 0 < modulus) (first other : Int) :
    0 ≤ subMod first other modulus := by
  rw [subMod_eq h]
  exact Int.emod_nonneg _ (by omega)

theorem subMod_lt {modulus : Int} (h : 0 < modulus) (first other : Int) :
    subMod first other modulus < modulus := by
  rw [subMod_eq h]
  exact Int.emod_lt_of_pos _ h

end Brainfuck
