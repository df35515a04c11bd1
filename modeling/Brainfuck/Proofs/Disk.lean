import Brainfuck.Disk
/-!
# What is written to a disk

A file that was created is found at its path with what was written, and
every other file is what it was (`Disk.wrote_of_create`). This is said of the
disk as it is seen from outside, as a `Listing` of files.

A path is looked up again on the disk with the new file. The directories on
the way are still there (`hasDirectory_put`), and none has come to be in the
place of the file (`hasDirectory_put_self`); so the second look-up goes the
way of the first (`walk_put`). It ends where the first ended because the path
has something behind its last slash: a vacant place would be found for a path
with slashes behind it too.
-/

namespace Brainfuck

/-- The last piece of a text is empty only behind a separator. -/
theorem Text.getLast?_split {separator : Char} {s : List Char}
    (h : (split separator s).getLast? = some []) : s = [] ∨ s.getLast? = some separator := by
  induction s with
  | nil => exact Or.inl rfl
  | cons c rest ih =>
    refine Or.inr ?_
    obtain ⟨piece, pieces, hsplit⟩ := List.exists_cons_of_ne_nil (split_ne_nil separator rest)
    have hlast : ∀ p, (p :: piece :: pieces).getLast? = some [] →
        rest = [] ∨ rest.getLast? = some separator := by
      intro p hp
      rw [List.getLast?_cons_cons, ← hsplit] at hp
      exact ih hp
    by_cases hc : c = separator
    · subst hc
      rw [split, if_pos rfl, hsplit] at h
      rcases hlast [] h with rfl | hrest
      · rfl
      · rw [List.getLast?_cons, hrest]
        rfl
    · rw [split, if_neg hc, hsplit] at h
      cases pieces with
      | nil => cases h
      | cons q pieces =>
        have hend : rest = [] ∨ rest.getLast? = some separator :=
          ih (by rw [hsplit, List.getLast?_cons_cons, ← h, List.getLast?_cons_cons])
        rcases hend with rfl | hrest
        · cases hsplit
        · rw [List.getLast?_cons, hrest]
          rfl

/-- Files as they are seen from outside: where a path leads, and what is in a
file, by whatever tells files apart. -/
structure Listing (κ : Type) where
  place? : String → Option κ
  content? : κ → Option (List UInt8)

/-- Later `data` is in the file that `path` leads to, and every other file is
what it was. -/
def Listing.Wrote {κ : Type} (earlier : Listing κ) (path : String) (data : List UInt8)
    (later : Listing κ) : Prop :=
  ∃ place, later.place? path = some place ∧ later.content? place = some data ∧
    ∀ other, other ≠ place → later.content? other = earlier.content? other

/-- A path at which a file is or can be. -/
inductive Place.IsAt (p : Path) : Place → Prop where
  | file (data : List UInt8) : IsAt p (.file p data)
  | vacant : IsAt p (.vacant p)

namespace Disk

variable {d d' : Disk} {p q : Path} {path : String} {data : List UInt8}

/-! ## Putting a file -/

@[simp] theorem lookup_put_self (d : Disk) (p : Path) (data : List UInt8) :
    (d.put p data).files.lookup p = some data :=
  List.lookup_cons_self ..

theorem lookup_put_of_ne (h : q ≠ p) : (d.put p data).files.lookup q = d.files.lookup q := by
  have hfilter : ∀ files : List (Path × List UInt8),
      (files.filter fun f => f.1 != p).lookup q = files.lookup q := by
    intro files
    induction files with
    | nil => rfl
    | cons f rest ih =>
      by_cases hf : f.1 = p
      · have hq : (q == f.1) = false := by simpa [hf] using h
        rw [List.filter_cons_of_neg (by simp [hf]), ih, List.lookup_cons, hq]
      · rw [List.filter_cons_of_pos (by simpa using hf), List.lookup_cons, List.lookup_cons, ih]
  have hq : (q == p) = false := by simpa using h
  rw [put, List.lookup_cons, hq]
  exact hfilter d.files

theorem hasDirectory_iff : d.hasDirectory q = true ↔
    q <+: d.workingDirectory ∨ (∃ r ∈ d.directories, q <+: r) ∨
      ∃ f ∈ d.files, q <+: f.1 ∧ q ≠ f.1 := by
  simp [hasDirectory, or_assoc]

/-- Directories stay where a file is put. -/
theorem hasDirectory_put (h : d.hasDirectory q = true) : (d.put p data).hasDirectory q = true := by
  rcases hasDirectory_iff.1 h with hq | hq | ⟨f, hf, hq⟩
  · exact hasDirectory_iff.2 (Or.inl hq)
  · exact hasDirectory_iff.2 (Or.inr (Or.inl hq))
  · refine hasDirectory_iff.2 (Or.inr (Or.inr ?_))
    by_cases hp : f.1 = p
    · exact ⟨(p, data), List.mem_cons_self .., hp ▸ hq⟩
    · exact ⟨f, List.mem_cons_of_mem _ (List.mem_filter.2 ⟨hf, by simpa using hp⟩), hq⟩

/-- A file that is put is no directory. -/
theorem hasDirectory_put_self (h : d.hasDirectory p = false) :
    (d.put p data).hasDirectory p = false := by
  rw [Bool.eq_false_iff] at h ⊢
  intro hput
  refine h (hasDirectory_iff.2 ?_)
  rcases hasDirectory_iff.1 hput with hp | hp | ⟨f, hf, hp⟩
  · exact Or.inl hp
  · exact Or.inr (Or.inl hp)
  · rcases List.mem_cons.1 hf with rfl | hf
    · exact absurd rfl hp.2
    · exact Or.inr (Or.inr ⟨f, (List.mem_filter.1 hf).1, hp⟩)

/-! ## Looking it up -/

/-- A component leads on, the same way on every disk with these directories,
or it is the place of a file and nothing but empty components follow. -/
theorem walk_cons_cases {here : Path} {name : String} {rest : List String} {place : Place}
    (h : d.walk here (name :: rest) = .ok place) :
    (∃ there, d.walk there rest = .ok place ∧
      ∀ later : Disk, (∀ r, d.hasDirectory r = true → later.hasDirectory r = true) →
        later.walk here (name :: rest) = later.walk there rest) ∨
    ∃ p, place.IsAt p ∧ d.hasDirectory p = false ∧ (∀ r ∈ rest, r = "") ∧
      ∀ (later : Disk) (data : List UInt8), later.hasDirectory p = false →
        later.files.lookup p = some data → rest = [] →
        later.walk here (name :: rest) = .ok (.file p data) := by
  simp only [walk] at h ⊢
  by_cases hskip : name = "" ∨ name = "."
  · simp only [if_pos hskip] at h ⊢
    exact Or.inl ⟨here, h, fun _ _ => rfl⟩
  simp only [if_neg hskip] at h ⊢
  by_cases hup : name = ".."
  · simp only [if_pos hup] at h ⊢
    exact Or.inl ⟨here.dropLast, h, fun _ _ => rfl⟩
  simp only [if_neg hup] at h ⊢
  by_cases hlong : componentLimit < name.utf8ByteSize
  · rw [if_pos hlong] at h
    cases h
  simp only [if_neg hlong] at h ⊢
  cases hdir : d.hasDirectory (here ++ [name]) with
  | true =>
    rw [hdir, if_pos rfl] at h
    refine Or.inl ⟨here ++ [name], h, fun later hlater => ?_⟩
    rw [hlater _ hdir, if_pos rfl]
  | false =>
    rw [hdir, if_neg Bool.false_ne_true] at h
    refine Or.inr ⟨here ++ [name], ?_, hdir, ?_, fun later data hno hdata hnil => by
      simp [hno, hdata, hnil]⟩
    · cases hlookup : d.files.lookup (here ++ [name]) <;> simp only [hlookup] at h <;>
        split at h <;> cases h
      · exact .vacant
      · exact .file _
    · intro r hr
      cases hlookup : d.files.lookup (here ++ [name]) <;> simp only [hlookup] at h <;>
        split at h <;> cases h
      · next hempty => exact of_decide_eq_true (List.all_eq_true.1 hempty r hr)
      · next hnil => simp [List.isEmpty_iff.1 hnil] at hr

/-- **A look-up that led to the place of a file finds the file put there.** -/
theorem walk_put {names : List String} {here : Path} {place : Place}
    (h : d.walk here names = .ok place) (hplace : place.IsAt p)
    (hlast : names.getLast? ≠ some "") :
    (d.put p data).walk here names = .ok (.file p data) := by
  induction names generalizing here with
  | nil =>
    cases h
    cases hplace
  | cons name rest ih =>
    have hrest : rest.getLast? ≠ some "" := by
      intro hr
      rw [List.getLast?_cons, hr] at hlast
      exact hlast rfl
    rcases walk_cons_cases h with ⟨there, hthere, hsame⟩ | ⟨q, hq, hdir, hempty, hfound⟩
    · rw [hsame _ fun r => hasDirectory_put]
      exact ih hthere hrest
    · obtain rfl : q = p := by
        cases hq <;> cases hplace <;> rfl
      refine hfound _ data (hasDirectory_put_self hdir) (lookup_put_self d q data) ?_
      rw [← List.getLast?_eq_none_iff, Option.eq_none_iff_forall_ne_some]
      intro last hr
      exact hrest (hr.trans (congrArg some (hempty last (List.mem_of_getLast? hr))))

theorem withoutSlashes_eq_self (h : path.toList.getLast? ≠ some '/') :
    withoutSlashes path = path := by
  have hdrop : path.toList.reverse.dropWhile (· == '/') = path.toList.reverse := by
    rw [← List.head?_reverse] at h
    cases hr : path.toList.reverse with
    | nil => rfl
    | cons c rest =>
      rw [hr] at h
      refine List.dropWhile_cons_of_neg ?_
      simpa using h
  simp only [withoutSlashes, hdrop, List.reverse_reverse, Bool.and_not_self, Bool.false_eq_true,
    if_false, String.ofList_toList]

theorem getLast?_components (hne : path.toList ≠ []) (h : path.toList.getLast? ≠ some '/') :
    (components path).getLast? ≠ some "" := by
  rw [components, List.getLast?_map]
  intro hlast
  obtain ⟨piece, hpiece, hempty⟩ := Option.map_eq_some_iff.1 hlast
  obtain rfl : piece = [] := String.ofList_eq_empty_iff.1 hempty
  rcases Text.getLast?_split hpiece with hnil | hslash
  · exact hne hnil
  · exact h hslash

theorem resolve_put {place : Place} (h : d.resolve path = .ok place) (hplace : place.IsAt p)
    (hslash : path.toList.getLast? ≠ some '/') :
    (d.put p data).resolve path = .ok (.file p data) := by
  unfold resolve at h ⊢
  by_cases hzero : path.toList.contains '\x00' = true
  · rw [if_pos hzero] at h
    cases h
  rw [if_neg hzero] at h ⊢
  by_cases hnone : path.isEmpty = true
  · rw [if_pos hnone] at h
    cases h
  rw [if_neg hnone] at h ⊢
  have hne : path.toList ≠ [] := by
    intro hnil
    have hempty : path = "" := String.toList_eq_nil_iff.1 hnil
    simp [hempty] at hnone
  exact walk_put h hplace (getLast?_components hne hslash)

/-- Where a file can be created, its path leads to a place for it. -/
theorem target_cases (h : d.target path = .ok p) :
    path.toList.getLast? ≠ some '/' ∧ ∃ place, d.resolve path = .ok place ∧ place.IsAt p := by
  unfold target at h
  cases hr : d.resolve (withoutSlashes path) with
  | error f =>
    rw [hr] at h
    cases h
  | ok place =>
    simp only [hr] at h
    by_cases hslash : (path.toList.getLast? == some '/') = true
    · rw [if_pos hslash] at h
      cases h
    · rw [if_neg hslash] at h
      have hslash' : path.toList.getLast? ≠ some '/' := fun he => hslash (beq_iff_eq.2 he)
      rw [withoutSlashes_eq_self hslash'] at hr
      refine ⟨hslash', place, hr, ?_⟩
      cases place with
      | directory => cases h
      | vacant r =>
        cases h
        exact .vacant
      | file r old =>
        cases h
        exact .file old

/-- Where a path leads, if there is a file. -/
def place? (d : Disk) (path : String) : Option Path :=
  match d.resolve path with
  | .ok (.file p _) => some p
  | _ => none

/-- The files of a disk, by their places in the tree. -/
def listing (d : Disk) : Listing Path := ⟨d.place?, (d.files.lookup ·)⟩

/-- **A file that was created holds what was written, and no other file has
changed.** -/
theorem wrote_of_create (h : d.create path data = .ok d') :
    d.listing.Wrote path data d'.listing := by
  unfold create at h
  cases ht : d.target path with
  | error f =>
    rw [ht] at h
    cases h
  | ok p =>
    rw [ht] at h
    obtain rfl : d.put p data = d' := Except.ok.inj h
    obtain ⟨hslash, place, hr, hplace⟩ := target_cases ht
    have hput : (d.put p data).resolve path = .ok (.file p data) := resolve_put hr hplace hslash
    refine ⟨p, ?_, lookup_put_self d p data, fun other hother => lookup_put_of_ne hother⟩
    simp only [listing, place?, hput]

/-- From a working directory below the root, a path with a slash in front and
one that goes up lead out of it. -/
example :
    ((Disk.mk [(["tmp", "f"], [43])] [] ["work"]).resolve "/tmp/f").toOption =
        some (.file ["tmp", "f"] [43]) ∧
      ((Disk.mk [] [] ["work"]).resolve "../t").toOption = some (.vacant ["t"]) ∧
      ((Disk.mk [] [] ["work"]).resolve "t").toOption = some (.vacant ["work", "t"]) := by
  decide +kernel

end Disk

end Brainfuck
