import Brainfuck.Proofs.Parse.Acceptance
import Brainfuck.Proofs.Printing.Units
import Mathlib.Logic.Relation
/-!
# Erasing empty brackets

The parser leaves out loops of its tree, and in the text the same is done by
erasing pairs `[]` until none is left. The two agree: a code can be erased
down to what its tree without the empty loops is printed as
(`Derives.erasesTo`), and whichever pair is erased first, the tree stays the
same without its empty loops (`Derives.exists_of_erases`), so no other text
without `[]` can be reached (`Derives.erased_iff`).
-/

namespace Brainfuck

/-! ## The relation -/

/-- One pair of brackets with nothing between them is erased. -/
inductive Erases : List Symbol → List Symbol → Prop where
  | pair (before after : List Symbol) :
      Erases (before ++ .loopStart :: .loopEnd :: after) (before ++ after)

/-- Pairs are erased one after another, any number of them. -/
def ErasesTo (code rest : List Symbol) : Prop := Relation.ReflTransGen Erases code rest

/-- Pairs are erased until none is left. -/
structure Erased (code rest : List Symbol) : Prop where
  erasesTo : ErasesTo code rest
  none_left : ¬ [.loopStart, .loopEnd] <:+: rest

theorem Erases.length_lt {code rest : List Symbol} (h : Erases code rest) :
    rest.length < code.length := by
  cases h
  simp only [List.length_append, List.length_cons]
  omega

/-- A pair is erased wherever it stands. -/
theorem Erases.context {code rest : List Symbol} (h : Erases code rest)
    (before after : List Symbol) :
    Erases (before ++ (code ++ after)) (before ++ (rest ++ after)) := by
  cases h with
  | pair x y =>
    have hp := Erases.pair (before ++ x) (y ++ after)
    simpa only [List.append_assoc, List.cons_append] using hp

namespace ErasesTo

variable {code rest : List Symbol}

theorem context (h : ErasesTo code rest) (before after : List Symbol) :
    ErasesTo (before ++ (code ++ after)) (before ++ (rest ++ after)) := by
  induction h with
  | refl => exact .refl
  | tail _ he ih => exact ih.tail (he.context before after)

theorem cons (h : ErasesTo code rest) (s : Symbol) : ErasesTo (s :: code) (s :: rest) := by
  have hc := h.context [s] []
  rwa [List.append_nil, List.append_nil] at hc

theorem append {code' rest' : List Symbol} (h : ErasesTo code rest) (h' : ErasesTo code' rest') :
    ErasesTo (code ++ code') (rest ++ rest') := by
  have hl := h.context [] code'
  have hr := h'.context rest []
  rw [List.append_nil, List.append_nil] at hr
  exact Relation.ReflTransGen.trans hl hr

theorem length_le (h : ErasesTo code rest) : rest.length ≤ code.length := by
  induction h with
  | refl => exact Nat.le_refl _
  | tail _ he ih => exact Nat.le_trans (Nat.le_of_lt he.length_lt) ih

/-- Where no pair is left nothing is erased. -/
theorem eq_of_none_left (h : ErasesTo code rest)
    (hn : ¬ [.loopStart, .loopEnd] <:+: code) : rest = code := by
  rcases Relation.ReflTransGen.cases_head h with heq | ⟨mid, he, -⟩
  · exact heq.symm
  · cases he with
    | pair before after =>
      refine absurd ⟨before, after, ?_⟩ hn
      rw [List.append_assoc]
      rfl

end ErasesTo

/-! ## Codes -/

/-- Commands that stand nowhere in particular. -/
def unplaced (code : List Symbol) : List (Position × Symbol) := code.map fun s => (.start, s)

theorem map_snd_unplaced (code : List Symbol) : (unplaced code).map Prod.snd = code := by
  rw [unplaced, List.map_map]
  exact List.map_id code

/-- A draft is as before when it has taken a pair. -/
theorem Draft.feedAll_pair (d : Draft) (after : List Symbol) :
    d.feedAll (unplaced (.loopStart :: .loopEnd :: after)) = d.feedAll (unplaced after) := rfl

theorem Draft.feedAll_unplaced_append (d : Draft) (before after : List Symbol) :
    d.feedAll (unplaced (before ++ after)) =
      d.feedAll (unplaced before) >>= fun d => d.feedAll (unplaced after) := by
  rw [unplaced, List.map_append]
  exact feedAll_append d _ _

namespace Derives

variable {code rest : List Symbol} {tree : Program}

/-- **A code is erased down to its tree without the empty loops.** -/
theorem erasesTo (h : Derives code tree) : ErasesTo code tree.withoutEmptyLoops.symbols := by
  induction h with
  | nil => exact .refl
  | @simple s a code tree hs _ ih =>
    rw [Program.withoutEmptyLoops_act, Program.symbols, hs.symbols_eq]
    exact ih.cons s
  | @loop inside code body tree _ _ ihb ih =>
    have hparts := (ihb.cons .loopStart).append (ih.cons .loopEnd)
    rw [Program.withoutEmptyLoops_loop]
    by_cases hn : body.withoutEmptyLoops = .nil
    · -- the pair around nothing is the last to go
      rw [hn] at hparts
      rw [hn, Program.keepLoop_nil]
      exact hparts.tail (.pair [] _)
    · rw [Program.keepLoop_of_ne_nil hn]
      exact hparts

/-- **Erasing a pair changes nothing but an empty loop**: the parser takes
what is left as it takes the whole. -/
theorem exists_of_erases (h : Derives code tree) (he : Erases code rest) :
    ∃ tree', Derives rest tree' ∧ tree'.withoutEmptyLoops = tree.withoutEmptyLoops := by
  cases he with
  | pair before after =>
    have hwhole := h.feedAll_eq _ {} (map_snd_unplaced _)
    rw [Draft.feedAll_unplaced_append] at hwhole
    simp only [Draft.feedAll_pair] at hwhole
    rw [← Draft.feedAll_unplaced_append] at hwhole
    have hreads := Draft.Reads.start.feedAll hwhole
    rw [List.nil_append, map_snd_unplaced] at hreads
    obtain ⟨tree', ht, heq⟩ := hreads.finish (Draft.finish_outside _)
    exact ⟨tree', ht, heq.symm⟩

/-- However many pairs are erased, the tree stays the same without its empty
loops. -/
theorem exists_of_erasesTo (h : Derives code tree) (he : ErasesTo code rest) :
    ∃ tree', Derives rest tree' ∧ tree'.withoutEmptyLoops = tree.withoutEmptyLoops := by
  induction he with
  | refl => exact ⟨tree, h, rfl⟩
  | tail _ he ih =>
    obtain ⟨tree', ht, heq⟩ := ih
    obtain ⟨tree'', ht', heq'⟩ := ht.exists_of_erases he
    exact ⟨tree'', ht', heq'.trans heq⟩

end Derives

/-- No pair stands in what a plain program is printed as: what is left of it
without the pair would be printed as all of it. -/
theorem Program.IsPlain.none_left {p : Program} (h : p.IsPlain) :
    ¬ [.loopStart, .loopEnd] <:+: p.symbols := by
  rintro ⟨before, after, heq⟩
  have he : Erases p.symbols (before ++ after) := by
    rw [← heq, List.append_assoc]
    exact .pair before after
  obtain ⟨tree, ht, hp⟩ := h.derives_symbols.exists_of_erases he
  rw [h.withoutEmptyLoops_eq] at hp
  have hle := ht.erasesTo.length_le
  rw [hp] at hle
  exact absurd he.length_lt (Nat.not_lt.mpr hle)

/-- **Erasing until no pair is left comes to one text only**: what the tree
without its empty loops is printed as. -/
theorem Derives.erased_iff {code rest : List Symbol} {tree : Program} (h : Derives code tree) :
    Erased code rest ↔ rest = tree.withoutEmptyLoops.symbols := by
  constructor
  · rintro ⟨he, hn⟩
    obtain ⟨tree', ht, heq⟩ := h.exists_of_erasesTo he
    rw [← heq]
    exact (ht.erasesTo.eq_of_none_left hn).symm
  · rintro rfl
    exact ⟨h.erasesTo, h.isPlain.none_left⟩

end Brainfuck
