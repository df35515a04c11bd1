import Brainfuck.Symbol
/-!
# Programs

A program is a finite sequence of actions and loops, and the body of a
loop is again a program. Runs of `>` and `<` may be fused into one move
and runs of `+` and `-` into one add, so a move carries its net shift and
an add its net change as a byte.

`Program.size` counts the nodes of the tree; `Program.count` counts them
with an explicit list of pending bodies, so that nesting costs no stack.
`Program.same` compares two programs in the same manner; `same_iff` says
it decides equality. `Program.symbols` are the commands of a program, and
`Program.print` writes them down with a stack of pending bodies (`text_eq`).
-/

namespace Brainfuck

/-! ## Changes of a cell -/

/-- A byte read as a signed amount: from 128 on it counts down from zero.
Integers outside the byte range are read by the same rule. -/
def toSigned (n : Int) : Int := if 128 ≤ n then n - 256 else n

/-- A change of a cell is a byte; its signed amount lies between `-128`
and `127`. -/
def signed (delta : UInt8) : Int := toSigned delta.toNat

/-- The byte congruent to an amount modulo 256. -/
def deltaOf (amount : Int) : UInt8 := UInt8.ofNat (amount % 256).toNat

/-- The refusal of an integer that is not a byte. -/
structure DeltaOutOfRange where
  value : Int
  deriving DecidableEq, Repr

/-- What is said about an integer that is not a byte. -/
def DeltaOutOfRange.message (e : DeltaOutOfRange) : String :=
  "Add delta out of byte range: " ++ toString e.value

/-- Accepts exactly the integers of a byte. -/
def deltaOfByte (value : Int) : Except DeltaOutOfRange UInt8 :=
  if 0 ≤ value ∧ value < 256 then .ok (UInt8.ofNat value.toNat) else .error ⟨value⟩

/-! ## Actions, instructions and programs -/

/-- An instruction that is not a loop. -/
inductive Action where
  /-- Shifts the cursor; a positive shift goes right. -/
  | move (shift : Int)
  /-- Changes the current cell. -/
  | add (delta : UInt8)
  /-- Writes the current cell as a character. -/
  | output
  /-- Reads a character into the current cell. -/
  | input
  deriving DecidableEq, Repr

/-- A sequence of actions and loops. -/
inductive Program where
  | nil
  | act (action : Action) (rest : Program)
  | loop (body rest : Program)
  deriving DecidableEq, Repr, Inhabited

/-- One member of a program. -/
inductive Instruction where
  | act (action : Action)
  | loop (body : Program)
  deriving DecidableEq, Repr

namespace Program

/-- Puts an instruction in front. -/
def cons : Instruction → Program → Program
  | .act a, p => act a p
  | .loop b, p => loop b p

/-- The program that runs the given instructions in order. -/
def ofList (l : List Instruction) : Program := l.foldr cons nil

/-- The top-level instructions. -/
def toList : Program → List Instruction
  | nil => []
  | act a r => .act a :: toList r
  | loop b r => .loop b :: toList r

/-- Puts a loop in front, unless its body is empty. -/
def keepLoop (body p : Program) : Program :=
  match body with
  | nil => p
  | body => loop body p

/-- Puts actions in front. -/
def acts (as : List Action) (p : Program) : Program := as.foldr act p

/-- One program after another. -/
def append : Program → Program → Program
  | nil, q => q
  | act a r, q => act a (append r q)
  | loop b r, q => loop b (append r q)

instance : Append Program := ⟨append⟩

@[simp] theorem nil_append (q : Program) : nil ++ q = q := rfl

@[simp] theorem act_append (a : Action) (r q : Program) : act a r ++ q = act a (r ++ q) := rfl

@[simp] theorem loop_append (b r q : Program) : loop b r ++ q = loop b (r ++ q) := rfl

@[simp] theorem append_nil (p : Program) : p ++ nil = p := by
  induction p with
  | nil => rfl
  | act a r ih => simp [ih]
  | loop b r _ ih => simp [ih]

theorem append_assoc (p q r : Program) : p ++ q ++ r = p ++ (q ++ r) := by
  induction p with
  | nil => rfl
  | act a s ih => simp [ih]
  | loop b s _ ih => simp [ih]

@[simp] theorem acts_nil (p : Program) : acts [] p = p := rfl

@[simp] theorem acts_cons (a : Action) (as : List Action) (p : Program) :
    acts (a :: as) p = act a (acts as p) := rfl

theorem acts_append (as bs : List Action) (p : Program) :
    acts (as ++ bs) p = acts as (acts bs p) := List.foldr_append

/-- Actions in front of a program are a program in front of it. -/
theorem acts_nil_append (as : List Action) (p : Program) : acts as nil ++ p = acts as p := by
  induction as with
  | nil => rfl
  | cons a as ih => rw [acts_cons, act_append, ih, acts_cons]

@[simp] theorem keepLoop_nil (p : Program) : keepLoop nil p = p := rfl

theorem keepLoop_of_ne_nil {b : Program} (h : b ≠ nil) (p : Program) :
    keepLoop b p = loop b p := by
  cases b with
  | nil => exact absurd rfl h
  | act a r => rfl
  | loop b r => rfl

@[simp] theorem keepLoop_append (b p q : Program) :
    keepLoop b p ++ q = keepLoop b (p ++ q) := by
  by_cases h : b = nil
  · rw [h, keepLoop_nil, keepLoop_nil]
  · rw [keepLoop_of_ne_nil h, keepLoop_of_ne_nil h, loop_append]

@[simp] theorem ofList_nil : ofList [] = nil := rfl

@[simp] theorem ofList_cons (i : Instruction) (l : List Instruction) :
    ofList (i :: l) = cons i (ofList l) := rfl

/-- A program is its list of instructions. -/
@[simp] theorem ofList_toList (p : Program) : ofList p.toList = p := by
  induction p with
  | nil => rfl
  | act a r ih => simp [toList, cons, ih]
  | loop b r _ ih => simp [toList, cons, ih]

@[simp] theorem toList_ofList (l : List Instruction) : (ofList l).toList = l := by
  induction l with
  | nil => rfl
  | cons i l ih => cases i <;> simp [toList, cons, ih]

@[simp] theorem toList_append (p q : Program) : (p ++ q).toList = p.toList ++ q.toList := by
  induction p with
  | nil => rfl
  | act a r ih => simp [toList, ih]
  | loop b r _ ih => simp [toList, ih]

/-- The number of top-level instructions. -/
def length (p : Program) : Nat := p.toList.length

/-! ## Counting -/

/-- The number of nodes: every loop counts once, and so does everything
inside it. -/
def size : Program → Nat
  | nil => 0
  | act _ r => size r + 1
  | loop b r => size b + size r + 1

/-- Every node and every end of a body: what is left to visit. -/
def weight : Program → Nat
  | nil => 1
  | act _ r => weight r + 1
  | loop b r => weight b + weight r + 1

theorem weight_pos (p : Program) : 0 < p.weight := by
  cases p <;> simp [weight]

/-- What is left to visit in a list of pending bodies. -/
def totalWeight : List Program → Nat
  | [] => 0
  | p :: ps => p.weight + totalWeight ps

/-- Counts the nodes of the pending bodies on top of `seen`. -/
def countPending (pending : List Program) (seen : Nat) : Nat :=
  match pending with
  | [] => seen
  | nil :: ps => countPending ps seen
  | act _ r :: ps => countPending (r :: ps) (seen + 1)
  | loop b r :: ps => countPending (r :: b :: ps) (seen + 1)
termination_by totalWeight pending
decreasing_by all_goals simp only [totalWeight, weight]; omega

/-- The number of instructions, loops and everything inside them included. -/
def count (p : Program) : Nat := countPending [p] 0

/-- Counting adds the nodes of every pending body. -/
theorem countPending_eq (pending : List Program) (seen : Nat) :
    countPending pending seen = pending.foldl (fun n p => n + p.size) seen := by
  fun_induction countPending pending seen with
  | case1 seen => rfl
  | case2 seen ps ih => simp [ih, size]
  | case3 seen a r ps ih =>
    have hr : seen + (act a r).size = seen + 1 + r.size := by
      simp only [size]
      omega
    rw [ih, List.foldl_cons, List.foldl_cons, hr]
  | case4 seen b r ps ih =>
    have hr : seen + (loop b r).size = seen + 1 + r.size + b.size := by
      simp only [size]
      omega
    rw [ih, List.foldl_cons, List.foldl_cons, List.foldl_cons, hr]

/-- The instructions are the nodes of the tree. -/
theorem count_eq_size (p : Program) : p.count = p.size := by
  simp [count, countPending_eq]

/-! ## Comparing -/

/-- What is left to compare in a list of pending pairs. -/
def totalPairWeight : List (Program × Program) → Nat
  | [] => 0
  | (p, _) :: ps => p.weight + totalPairWeight ps

/-- Whether the members of every pending pair are equal. -/
def samePending (pending : List (Program × Program)) : Bool :=
  match pending with
  | [] => true
  | (nil, nil) :: ps => samePending ps
  | (act a p, act b q) :: ps => if a = b then samePending ((p, q) :: ps) else false
  | (loop b p, loop c q) :: ps => samePending ((p, q) :: (b, c) :: ps)
  | (_, _) :: _ => false
termination_by totalPairWeight pending
decreasing_by all_goals simp only [totalPairWeight, weight]; omega

/-- Whether two programs have the same instructions, loop bodies included. -/
def same (p q : Program) : Bool := samePending [(p, q)]

/-- The pending pairs compare equal exactly when each of them is equal. -/
theorem samePending_iff (pending : List (Program × Program)) :
    samePending pending = true ↔ ∀ pq ∈ pending, pq.1 = pq.2 := by
  fun_induction samePending pending with
  | case1 => simp
  | case2 ps ih => simpa using ih
  | case3 p b q ps ih => simpa using ih
  | case4 a p b q ps hab => simp [hab]
  | case5 b p c q ps ih =>
    rw [ih]
    simp only [List.mem_cons, forall_eq_or_imp, loop.injEq]
    constructor
    · rintro ⟨h₁, h₂, h₃⟩
      exact ⟨⟨h₂, h₁⟩, h₃⟩
    · rintro ⟨⟨h₁, h₂⟩, h₃⟩
      exact ⟨h₂, h₁, h₃⟩
  | case6 p q ps h₁ h₂ h₃ =>
    constructor
    · intro h
      cases h
    · intro h
      have hpq : p = q := h (p, q) (List.mem_cons_self ..)
      subst hpq
      cases p with
      | nil => exact absurd rfl (h₁ rfl)
      | act a r => exact (h₂ a r a r rfl rfl).elim
      | loop b r => exact (h₃ b r b r rfl rfl).elim

/-! ## Printing -/

end Program

/-- The commands of an action: a fused move or add is printed as that many
single steps, and one that changes nothing prints nothing. -/
def Action.symbols : Action → List Symbol
  | .move n => if 0 < n then .replicate n.natAbs .shiftRight else .replicate n.natAbs .shiftLeft
  | .add d =>
    if 0 < signed d then .replicate (signed d).natAbs .increment
    else .replicate (signed d).natAbs .decrement
  | .output => [.output]
  | .input => [.input]

namespace Program

/-- The commands of a program, loops in brackets. -/
def symbols : Program → List Symbol
  | nil => []
  | act a r => a.symbols ++ symbols r
  | loop b r => .loopStart :: symbols b ++ .loopEnd :: symbols r

/-- The commands of what is left of a body and of the bodies that it stands in,
innermost first. -/
def print (body : Program) (outer : List Program) : List Symbol :=
  match body, outer with
  | nil, [] => []
  | nil, r :: outer => .loopEnd :: print r outer
  | act a r, outer => a.symbols ++ print r outer
  | loop b r, outer => .loopStart :: print b (r :: outer)
termination_by body.weight + totalWeight outer
decreasing_by all_goals simp only [totalWeight, weight]; omega

/-- The source text of a program. -/
def text (p : Program) : String := Symbol.text (p.print [])

/-- Each body that is pending is printed behind the end of the one before. -/
theorem print_eq (body : Program) (outer : List Program) :
    body.print outer = body.symbols ++ outer.flatMap fun r => .loopEnd :: r.symbols := by
  fun_induction print body outer with
  | case1 => rfl
  | case2 r outer ih => rw [ih, symbols, List.nil_append, List.flatMap_cons, List.cons_append]
  | case3 outer a r ih => rw [ih, symbols, List.append_assoc]
  | case4 outer b r ih =>
    rw [ih, symbols, List.flatMap_cons, List.cons_append, List.cons_append, List.cons_append,
      List.append_assoc, List.cons_append]

/-- **The text of a program is its commands**, loops in brackets. -/
theorem text_eq (p : Program) : p.text = Symbol.text p.symbols := by
  rw [text, print_eq, List.flatMap_nil, List.append_nil]

@[simp] theorem symbols_append (p q : Program) : (p ++ q).symbols = p.symbols ++ q.symbols := by
  induction p with
  | nil => rfl
  | act a r ih => simp [symbols, ih]
  | loop b r _ ih => simp [symbols, ih]

end Program

end Brainfuck
