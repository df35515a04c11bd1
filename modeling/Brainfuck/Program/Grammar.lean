import Brainfuck.Program.Parse
/-!
# The grammar

A code is any number of statements in a row, and a statement is one of the
six simple commands, or a code in brackets. `Derives` says which program
is the tree of a code; brackets around nothing are a loop with an empty
body there. `Program.withoutEmptyLoops` takes such loops out, from the
innermost outwards.
-/

namespace Brainfuck

/-- The six statements that are no loop, and the action of each. -/
inductive Statement : Symbol → Action → Prop where
  | increment : Statement .increment (.add 1)
  | decrement : Statement .decrement (.add 255)
  | shiftLeft : Statement .shiftLeft (.move (-1))
  | shiftRight : Statement .shiftRight (.move 1)
  | output : Statement .output .output
  | input : Statement .input .input

/-- A parser takes a command for the action that the grammar gives it. -/
theorem Symbol.action?_eq_some_iff {s : Symbol} {a : Action} :
    s.action? = some a ↔ Statement s a := by
  constructor
  · intro h
    cases s <;> cases h <;> constructor
  · rintro ⟨⟩ <;> rfl

/-- `Derives code p`: the commands are a code, and the program is its tree. -/
inductive Derives : List Symbol → Program → Prop where
  | nil : Derives [] .nil
  | simple {s : Symbol} {a : Action} {code : List Symbol} {rest : Program} :
      Statement s a → Derives code rest → Derives (s :: code) (.act a rest)
  | loop {inside code : List Symbol} {body rest : Program} :
      Derives inside body → Derives code rest →
      Derives (.loopStart :: inside ++ .loopEnd :: code) (.loop body rest)

/-- The program without the loops whose body is empty, or becomes empty when
such loops are taken out of it. -/
def Program.withoutEmptyLoops : Program → Program
  | nil => nil
  | act a r => act a (withoutEmptyLoops r)
  | loop b r => keepLoop (withoutEmptyLoops b) (withoutEmptyLoops r)

/-- The commands among bytes. -/
def commands (data : List UInt8) : List Symbol := data.filterMap Symbol.ofByte?

theorem commands_append (data data' : List UInt8) :
    commands (data ++ data') = commands data ++ commands data' :=
  List.filterMap_append

theorem commands_byte_cons (s : Symbol) (data : List UInt8) :
    commands (s.byte :: data) = s :: commands data :=
  List.filterMap_cons_some s.ofByte?_byte

/-- The first commands are those among the first bytes. -/
theorem commands_mono {pre data : List UInt8} (h : pre <+: data) :
    commands pre <+: commands data :=
  h.filterMap _

/-- Written as bytes, commands are read as they are. -/
theorem commands_map_byte (code : List Symbol) : commands (code.map Symbol.byte) = code := by
  induction code with
  | nil => rfl
  | cons s code ih => rw [List.map_cons, commands_byte_cons, ih]

/-- The number of brackets that are opened in a code and not closed in it. -/
def depth (code : List Symbol) : Int := code.count .loopStart - code.count .loopEnd

/-- A code opens as many brackets as it closes. -/
theorem Derives.depth_eq {code : List Symbol} {p : Program} (h : Derives code p) :
    depth code = 0 := by
  induction h with
  | nil => rfl
  | @simple s a code rest hs _ ih =>
    cases hs <;> simp_all [depth]
  | loop _ _ ih₁ ih₂ =>
    simp only [depth, List.count_append, List.cons_append, List.count_cons] at *
    simp only [beq_iff_eq, reduceCtorEq, if_false, BEq.rfl, if_true]
    omega

end Brainfuck
