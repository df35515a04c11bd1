import Brainfuck.Proofs.Fusion.Iteration
import Mathlib.Data.List.Nodup
/-!
# Counting and comparing node by node

The nodes of a program are told apart by their addresses: which instruction of
the program, which of the body of that loop, and so on inwards. What stands at
a node is an action or a loop. A program is what stands at its addresses
(`eq_iff_node?`), and `addresses` lists each of them once
(`nodup_addresses`, `mem_addresses`).

Counting and comparing go through bodies that are pending in a list, in an
order that is not that of the tree: what follows a loop comes before what is in
it. What they come to is nevertheless said of the tree: see
`samePending_iff`, `countPending_eq` and, put together,
`same_and_count_exact`.
-/

namespace Brainfuck

/-- What stands at a node. -/
inductive Node where
  | act (a : Action)
  | loop
  deriving DecidableEq, Repr

/-- What stands at the node of an instruction. -/
def Instruction.node : Instruction → Node
  | act a => .act a
  | loop _ => .loop

namespace Program

/-- What stands at an address: the first number says which instruction of the
program, and the others, if any, are the address in the body of that loop. -/
def node? (p : Program) : List Nat → Option Node
  | [] => none
  | [i] => p.toList[i]?.map Instruction.node
  | i :: j :: inside =>
    match p.toList[i]? with
    | some (.loop b) => node? b (j :: inside)
    | _ => none

/-- The address of the same node with one more instruction in front. -/
def further (x : List Nat) : List Nat := x.modifyHead (· + 1)

/-- The addresses of the nodes, in the order of the text. -/
def addresses : Program → List (List Nat)
  | nil => []
  | act _ r => [0] :: (addresses r).map further
  | loop b r => [0] :: ((addresses b).map (0 :: ·) ++ (addresses r).map further)

/-! ## What stands at an address -/

variable {p q : Program}

theorem node?_nil (x : List Nat) : nil.node? x = none := by
  match x with
  | [] => rfl
  | [i] => rfl
  | i :: j :: inside => rfl

theorem node?_act_further (a : Action) (r : Program) (x : List Nat) :
    (act a r).node? (further x) = r.node? x := by
  match x with
  | [] => rfl
  | [i] => rfl
  | i :: j :: inside => rfl

theorem node?_loop_further (b r : Program) (x : List Nat) :
    (loop b r).node? (further x) = r.node? x := by
  match x with
  | [] => rfl
  | [i] => rfl
  | i :: j :: inside => rfl

theorem node?_loop_inside (b r : Program) {x : List Nat} (h : x ≠ []) :
    (loop b r).node? (0 :: x) = b.node? x := by
  cases x with
  | nil => exact absurd rfl h
  | cons j inside => rfl

/-- **A program is what stands at its addresses.** -/
theorem eq_iff_node? {p q : Program} : p = q ↔ ∀ x, p.node? x = q.node? x := by
  refine ⟨fun h x => h ▸ rfl, fun h => ?_⟩
  induction p generalizing q with
  | nil =>
    cases q with
    | nil => rfl
    | act | loop => cases h [0]
  | act a r ih =>
    cases q with
    | nil | loop => cases h [0]
    | act a' r' =>
      have ha : a = a' := by simpa [node?, toList, Instruction.node] using h [0]
      have hr : r = r' := ih fun x => by
        rw [← node?_act_further a, h, node?_act_further]
      rw [ha, hr]
  | loop b r ihb ih =>
    cases q with
    | nil | act => cases h [0]
    | loop b' r' =>
      have hr : r = r' := ih fun x => by
        rw [← node?_loop_further b, h, node?_loop_further]
      have hb : b = b' := ihb fun x => by
        by_cases hx : x = []
        · rw [hx]
          rfl
        · rw [← node?_loop_inside b r hx, h, node?_loop_inside b' r' hx]
      rw [hb, hr]

/-! ## Every node once -/

theorem further_injective : Function.Injective further := by
  intro x y h
  cases x <;> cases y <;> simp_all [further]

theorem zero_cons_not_mem_map_further (inside : List Nat) (l : List (List Nat)) :
    0 :: inside ∉ l.map further := by
  intro h
  obtain ⟨x, -, hx⟩ := List.mem_map.1 h
  cases x <;> simp [further] at hx

theorem further_mem_map_further {x : List Nat} {l : List (List Nat)} :
    further x ∈ l.map further ↔ x ∈ l :=
  List.mem_map_of_injective further_injective

theorem zero_cons_mem_map_cons {inside : List Nat} {l : List (List Nat)} :
    0 :: inside ∈ l.map (0 :: ·) ↔ inside ∈ l :=
  List.mem_map_of_injective List.cons_injective

theorem nil_not_mem_addresses (p : Program) : [] ∉ p.addresses := by
  have hfurther (l : List (List Nat)) : [] ∈ l.map further ↔ [] ∈ l :=
    @further_mem_map_further [] l
  induction p with
  | nil => exact List.not_mem_nil
  | act a r ih => simpa [addresses, hfurther] using ih
  | loop b r _ ih => simpa [addresses, hfurther] using ih

/-- **No address is listed twice.** -/
theorem nodup_addresses (p : Program) : p.addresses.Nodup := by
  induction p with
  | nil => exact List.nodup_nil
  | act a r ih =>
    exact List.nodup_cons.2
      ⟨zero_cons_not_mem_map_further [] _, List.Nodup.map further_injective ih⟩
  | loop b r ihb ih =>
    refine List.nodup_cons.2 ⟨?_, List.Nodup.append (List.Nodup.map List.cons_injective ihb)
      (List.Nodup.map further_injective ih) ?_⟩
    · rw [List.mem_append, zero_cons_mem_map_cons]
      exact not_or.2 ⟨nil_not_mem_addresses b, zero_cons_not_mem_map_further [] _⟩
    · -- an address in the body begins with the place of the loop, which is the first
      intro x hx hfurther
      obtain ⟨inside, -, rfl⟩ := List.mem_map.1 hx
      exact zero_cons_not_mem_map_further inside _ hfurther

/-- **The addresses are those at which something stands.** -/
theorem mem_addresses {p : Program} {x : List Nat} :
    x ∈ p.addresses ↔ (p.node? x).isSome = true := by
  induction p generalizing x with
  | nil => simp [addresses, node?_nil]
  | act a r ih =>
    match x with
    | [] => simpa [node?] using nil_not_mem_addresses (act a r)
    | [0] => simp [addresses, node?, toList]
    | 0 :: j :: inside =>
      have hno : 0 :: j :: inside ∉ (act a r).addresses := by
        simpa [addresses] using zero_cons_not_mem_map_further (j :: inside) r.addresses
      simpa [node?, toList] using hno
    | (i + 1) :: inside =>
      rw [show (i + 1) :: inside = further (i :: inside) from rfl, node?_act_further, ← ih,
        addresses, List.mem_cons, further_mem_map_further]
      simp [further]
  | loop b r ihb ih =>
    match x with
    | [] => simpa [node?] using nil_not_mem_addresses (loop b r)
    | [0] => simp [addresses, node?, toList]
    | 0 :: j :: inside =>
      have hno := zero_cons_not_mem_map_further (j :: inside) r.addresses
      rw [node?_loop_inside b r (List.cons_ne_nil _ _), ← ihb, addresses, List.mem_cons,
        List.mem_append, zero_cons_mem_map_cons]
      simp [hno]
    | (i + 1) :: inside =>
      rw [show (i + 1) :: inside = further (i :: inside) from rfl, node?_loop_further, ← ih,
        addresses, List.mem_cons, List.mem_append, further_mem_map_further]
      simp [further]

theorem length_addresses (p : Program) : p.addresses.length = p.size := by
  induction p with
  | nil => rfl
  | act a r ih => rw [addresses, List.length_cons, List.length_map, ih, size]
  | loop b r ihb ih =>
    rw [addresses, List.length_cons, List.length_append, List.length_map, List.length_map, ihb, ih,
      size]

/-! ## Counting and comparing -/

/-- The comparison is an equivalence, being equality. -/
theorem equivalence_same : Equivalence fun p q : Program => same p q = true := by
  simp only [same_iff]
  exact eq_equivalence

/-- The driver stops behind a pass exactly if that changed nothing. -/
theorem passes_succ (policies : Policies) (limit : Nat) (p : Program) :
    passes policies (limit + 1) p =
      if p.pass policies = p then [p.pass policies]
      else p.pass policies :: passes policies limit (p.pass policies) := by
  by_cases h : p.pass policies = p
  · rw [if_pos h, passes_succ_of_isStable h]
  · rw [if_neg h, passes_succ_of_not_isStable h]

/-- **Comparing and counting are exact**, at any depth. Two programs compare
equal exactly if they are the same tree, which is if the same stands at every
address; so comparing is reflexive, symmetric and transitive, and the driver
stops behind a pass exactly if that left the program as it was. The count is
that of the nodes by recursion over the tree: there is a list of the addresses
at which something stands, each of them listed once, and of that length. -/
theorem same_and_count_exact :
    (∀ p q : Program, (same p q = true ↔ p = q) ∧ (p = q ↔ ∀ x, p.node? x = q.node? x)) ∧
    Equivalence (fun p q : Program => same p q = true) ∧
    (∀ (policies : Policies) (limit : Nat) (p : Program), passes policies (limit + 1) p =
      if p.pass policies = p then [p.pass policies]
      else p.pass policies :: passes policies limit (p.pass policies)) ∧
    ∀ p : Program, p.count = p.size ∧ p.count = p.addresses.length ∧ p.addresses.Nodup ∧
      ∀ x, x ∈ p.addresses ↔ (p.node? x).isSome = true := by
  refine ⟨fun p q => ⟨same_iff p q, eq_iff_node?⟩, equivalence_same, passes_succ, fun p => ?_⟩
  have hcount : p.count = p.size := count_eq_size p
  exact ⟨hcount, hcount.trans (length_addresses p).symm, nodup_addresses p, fun _ => mem_addresses⟩

/-- A loop with an action and an empty loop in it, and an action behind it:
four nodes, two of them in the first. -/
example : (loop (act .output (loop nil nil)) (act .input nil)).addresses =
    [[0], [0, 0], [0, 1], [1]] := rfl

end Program

end Brainfuck
