import Brainfuck.CommandLine.Arguments
import Brainfuck.Proofs.Text.Integer
import Mathlib.Data.List.TakeDrop
import Mathlib.Data.List.TakeWhile
/-!
# A switch in front

An integer is no switch, so after a switch that takes one it is the value
(`classifyOne_toString`). A count for the optimizer in front of other
arguments is all that it adds: they are read as they are without it, up to
the count (`Arguments.ofList_optimize`).

Arguments are read from left to right, so this is an induction over
`Progress.scan` from two states that differ in the count. `OptimizesLike`
says how they may differ: a later count makes them equal.
-/

namespace Brainfuck.CommandLine

/-! ## Integers are operands -/

/-- Nothing is left where all of a list satisfies the predicate. -/
theorem span_of_forall {α : Type} {P : α → Bool} {l : List α} (h : ∀ a ∈ l, P a = true) :
    l.span P = (l, []) := by
  rw [List.span_eq_takeWhile_dropWhile, List.takeWhile_eq_self_iff.2 h,
    List.dropWhile_eq_nil_iff.2 h]

/-- No name of a switch has a digit after its dash. -/
theorem take_ne_of_mem_table {name : List Char × Switch} (hname : name ∈ Switch.table) {c : Char}
    (hc : c.isDigit = true) : name.1.take 2 ≠ ['-', c] := by
  have hall : ∀ name ∈ Switch.table, (name.1.take 2)[1]?.any Char.isDigit = false := by decide
  intro he
  have hn := hall name hname
  rw [he] at hn
  exact Bool.false_ne_true (hn.symm.trans hc)

section Negative

variable {c : Char} {digits : List Char} (h : ∀ d ∈ c :: digits, d.isDigit = true)

include h

theorem not_mem_negative {d : Char} (hdash : d ≠ '-') (hd : d.isDigit = false) :
    d ∉ '-' :: c :: digits := by
  intro hm
  rcases List.mem_cons.1 hm with rfl | hm
  · exact hdash rfl
  · exact Bool.false_ne_true (hd.symm.trans (h d hm))

theorem ofName?_negative : Switch.ofName? ('-' :: c :: digits) = none := by
  rw [Switch.ofName?, List.lookup_eq_none_iff]
  intro name hname
  rw [bne_iff_ne]
  intro he
  exact take_ne_of_mem_table hname (h c List.mem_cons_self) (by rw [← he]; rfl)

theorem cutAtEquals_negative : cutAtEquals ('-' :: c :: digits) = none := by
  have hall : ∀ d ∈ '-' :: c :: digits, decide (d ≠ '=') = true := by
    intro d hd
    rw [decide_eq_true_eq]
    rintro rfl
    exact not_mem_negative h (by decide) (by decide) hd
  rw [cutAtEquals, span_of_forall hall]

theorem candidates_negative : candidates ('-' :: c :: digits) = [] := by
  have hc : c ≠ '-' := by
    rintro rfl
    exact absurd (h '-' List.mem_cons_self) (by decide)
  unfold candidates
  split
  · next he =>
    cases he
    exact absurd rfl hc
  · rw [List.filterMap_eq_nil_iff]
    rintro ⟨name, switch⟩ hname
    refine if_neg fun he => ?_
    exact take_ne_of_mem_table hname (h c List.mem_cons_self) (by rw [he]; rfl)

theorem looksNegative_negative : looksNegative ('-' :: c :: digits) = true := by
  have hall : ∀ d ∈ c :: digits, (Text.digitValue? d).isSome = true := by
    intro d hd
    rw [Text.digitValue?_of_isDigit (h d hd)]
    rfl
  have hlast : ('-' :: c :: digits).getLast? ≠ some '\n' := by
    intro he
    exact not_mem_negative h (by decide) (by decide) (List.mem_of_getLast? he)
  unfold looksNegative
  simp only [if_neg hlast, span_of_forall hall]
  rfl

/-- Digits after a dash are taken for a number. -/
theorem classifyOne_negative {argument : String} (ha : argument.toList = '-' :: c :: digits) :
    classifyOne argument = .ok .operand := by
  unfold classifyOne
  simp only [ha, ofName?_negative h, cutAtEquals_negative h, candidates_negative h,
    looksNegative_negative h]
  rfl

end Negative

/-- **An integer is an operand.** -/
theorem classifyOne_toString (n : Int) : classifyOne (toString n) = .ok .operand := by
  cases n with
  | ofNat n =>
    have hhead : (toString (Int.ofNat n)).toList.head? ≠ some '-' := by
      rw [Text.toList_toString_ofNat]
      intro he
      have hdash : '-'.isDigit = true := Text.isDigit_of_mem_decimal (List.mem_of_head? he)
      exact absurd hdash (by decide)
    rw [classifyOne]
    exact if_pos hhead
  | negSucc n =>
    have htext := Text.toList_toString_negSucc n
    cases hdigits : Nat.toDigits 10 (n + 1) with
    | nil => exact absurd hdigits Nat.toDigits_ne_nil
    | cons c digits =>
      rw [hdigits] at htext
      refine classifyOne_negative (fun d hd => ?_) htext
      rw [← hdigits] at hd
      exact Text.isDigit_of_mem_decimal hd

/-! ## Arguments up to the count -/

/-- The same results from related ones, and the same errors. -/
inductive Alike {ε α : Type} (R : α → α → Prop) : Except ε α → Except ε α → Prop where
  | error (e : ε) : Alike R (.error e) (.error e)
  | ok {a b : α} : R a b → Alike R (.ok a) (.ok b)

theorem Alike.bind {ε α β : Type} {R : α → α → Prop} {S : β → β → Prop} {x y : Except ε α}
    {f g : α → Except ε β} (h : Alike R x y) (hf : ∀ a b, R a b → Alike S (f a) (g b)) :
    Alike S (x >>= f) (y >>= g) := by
  cases h with
  | error e => exact .error e
  | ok hr => exact hf _ _ hr

/-- The second arguments are the first, or they differ from them in a count
of `m` passes. -/
def Arguments.OptimizesLike (m : Option Int) (a b : Arguments) : Prop :=
  b = a ∨ b = { a with optimize := m }

/-- The same progress, up to the count. -/
structure Progress.OptimizesLike (m : Option Int) (p q : Progress) : Prop where
  arguments : p.arguments.OptimizesLike m q.arguments
  fileTaken : q.fileTaken = p.fileTaken
  leftover : q.leftover = p.leftover

variable {m : Option Int} {a b : Arguments} {p q : Progress}

namespace Arguments

theorem OptimizesLike.refl (a : Arguments) : a.OptimizesLike m a := Or.inl rfl

/-- A switch has the same effect, and a count makes equal. -/
theorem OptimizesLike.apply (h : a.OptimizesLike m b) (switch : Switch) (value : List Char) :
    Alike (OptimizesLike m) (a.apply switch value) (b.apply switch value) := by
  rcases h with rfl | rfl
  · cases hx : b.apply switch value with
    | error e => exact .error e
    | ok c => exact .ok (.refl c)
  · cases switch with
    | help => exact .error _
    | size =>
      simp only [Arguments.apply]
      cases integer .size value with
      | error e => exact .error e
      | ok n => exact .ok (Or.inr rfl)
    | optimize =>
      simp only [Arguments.apply]
      cases integer .optimize value with
      | error e => exact .error e
      | ok n => exact .ok (Or.inl rfl)
    | binary | hex | decimal =>
      simp only [Arguments.apply, choose]
      cases hf : a.format with
      | none => exact .ok (Or.inr rfl)
      | some f =>
        simp only
        split
        · exact .ok (Or.inr (by rw [hf]))
        · exact .error _
    | clampTape | clampCells | emit | output | verbose => exact .ok (Or.inr rfl)

theorem OptimizesLike.applyAll (h : a.OptimizesLike m b) (switches : List Switch) :
    Alike (OptimizesLike m) (a.applyAll switches) (b.applyAll switches) := by
  unfold Arguments.applyAll
  induction switches generalizing a b with
  | nil => exact .ok h
  | cons s rest ih =>
    rw [List.foldlM_cons, List.foldlM_cons]
    exact (h.apply s []).bind fun _ _ h' => ih h'

end Arguments

namespace Progress

theorem OptimizesLike.apply (h : p.OptimizesLike m q) (flags : List Switch)
    (valued : Option (Switch × List Char)) :
    Alike (OptimizesLike m) (p.apply flags valued) (q.apply flags valued) := by
  unfold Progress.apply
  refine (h.arguments.applyAll flags).bind fun a b hab => ?_
  cases valued with
  | none => exact .ok ⟨hab, h.fileTaken, h.leftover⟩
  | some v => exact (hab.apply v.1 v.2).bind fun a b hab => .ok ⟨hab, h.fileTaken, h.leftover⟩

theorem OptimizesLike.operand (h : p.OptimizesLike m q) (argument : String) :
    (p.operand argument).OptimizesLike m (q.operand argument) := by
  obtain ⟨harguments, hfile, hleft⟩ := h
  unfold Progress.operand
  rw [hfile]
  split
  · exact ⟨harguments, rfl, by rw [hleft]⟩
  · refine ⟨?_, rfl, hleft⟩
    rcases harguments with h | h
    · exact Or.inl (by rw [h])
    · exact Or.inr (by rw [h])

theorem OptimizesLike.operands (h : p.OptimizesLike m q) (words : List (String × Word)) :
    (p.operands words).OptimizesLike m (q.operands words) := by
  have hleave : ∀ {p q : Progress} (rest : List (String × Word)), p.OptimizesLike m q →
      OptimizesLike m { p with leftover := (rest.map (·.1)).reverse ++ p.leftover }
        { q with leftover := (rest.map (·.1)).reverse ++ q.leftover } :=
    fun rest h => ⟨h.arguments, h.fileTaken, by rw [h.leftover]⟩
  unfold Progress.operands
  rw [h.fileTaken]
  split
  · exact hleave _ h
  · split
    · exact hleave _ (h.operand _)
    · exact h
    · exact hleave _ (h.operand _)
    · exact hleave _ (h.operand _)
    · exact h

/-- **The rest of the arguments is read alike.** -/
theorem OptimizesLike.scan (h : p.OptimizesLike m q) (words : List (String × Word)) :
    Alike (OptimizesLike m) (p.scan words) (q.scan words) := by
  induction p, words using Progress.scan.induct generalizing q with
  | case1 p => exact .ok h
  | case2 p argument rest ih =>
    exact ih ⟨h.arguments, h.fileTaken, congrArg (argument :: ·) h.leftover⟩
  | case3 p argument use rest e hc =>
    simp only [Progress.scan, hc]
    exact .error _
  | case4 p argument use rest flags hc ih =>
    simp only [Progress.scan, hc]
    exact (h.apply flags none).bind fun p' _ h' => ih p' h'
  | case5 p argument use rest flags switch value hc ih =>
    simp only [Progress.scan, hc]
    exact (h.apply flags _).bind fun p' _ h' => ih p' h'
  | case6 p argument use flags switch hc value rest ih =>
    simp only [Progress.scan, hc]
    exact (h.apply flags _).bind fun p' _ h' => ih p' h'
  | case7 p argument use rest flags switch hc hvalue =>
    simp only [Progress.scan, hc]
    exact .error _
  | case8 p argument rest hswitch ih =>
    simp only [Progress.scan, if_pos hswitch]
    exact ih (h.operand argument)
  | case9 p argument rest hswitch =>
    simp only [Progress.scan, if_neg hswitch]
    exact .ok (h.operands _)
  | case10 p argument rest => exact .ok (h.operands _)

end Progress

/-! ## A count in front -/

theorem classify_optimize {count : String} (hc : classifyOne count = .ok .operand)
    (argv : List String) :
    classify ("-O" :: count :: argv) =
      (classify argv).map fun words =>
        ("-O", .switch ⟨.optimize, ['-', 'O'], none⟩) :: (count, .operand) :: words := by
  have hcount : count ≠ "--" := by
    rintro rfl
    cases hc
  rw [classify, if_neg (by decide), classify, if_neg hcount, hc]
  cases classify argv <;> rfl

theorem integer_of_readInteger {switch : Switch} {value : List Char} {n : Int}
    (h : Text.readInteger value = some n) : Arguments.integer switch value = .ok (some n) := by
  have hvalue : value ≠ ['-', '-'] := by
    rintro rfl
    cases h
  rw [Arguments.integer, if_neg hvalue, h]

/-- The count takes effect first. -/
theorem scan_optimize {count : String} {n : Int} (hn : Text.readInteger count.toList = some n)
    (words : List (String × Word)) :
    Progress.scan {} (("-O", .switch ⟨.optimize, ['-', 'O'], none⟩) :: (count, .operand) :: words) =
      Progress.scan { arguments := { optimize := some n } } words := by
  have hcount : Progress.apply {} [] (some (.optimize, count.toList)) =
      .ok { arguments := { optimize := some n } } := by
    simp only [Progress.apply, Arguments.applyAll, Arguments.apply, integer_of_readInteger hn]
    rfl
  have hcluster : Use.cluster ⟨.optimize, ['-', 'O'], none⟩ = .ok ⟨[], some (.optimize, none)⟩ :=
    rfl
  rw [Progress.scan]
  simp only [hcluster, hcount]
  rfl

/-- **A count for the optimizer in front of the arguments is all that it
adds.** -/
theorem Arguments.ofList_optimize {count : String} {n : Int}
    (hc : classifyOne count = .ok .operand) (hn : Text.readInteger count.toList = some n)
    (argv : List String) :
    Alike (OptimizesLike (some n)) (ofList argv) (ofList ("-O" :: count :: argv)) := by
  unfold ofList
  rw [classify_optimize hc]
  cases classify argv with
  | error e => exact .error _
  | ok words =>
    simp only [Except.map, scan_optimize hn]
    have hstart : Progress.OptimizesLike (some n) {} { arguments := { optimize := some n } } :=
      ⟨Or.inr rfl, rfl, rfl⟩
    refine (hstart.scan words).bind fun p q h => ?_
    rw [h.leftover]
    split
    · exact .ok h.arguments
    · exact .error _

end Brainfuck.CommandLine
