import Brainfuck.Proofs.Execution.Answers
import Brainfuck.Proofs.Execution.Failures
/-!
# What the calls of a device keep

A run meets its device in calls, all of which succeed but perhaps the last
(`Moves.unfailed_answers`, `Ends.answers`). So what every call that succeeds
keeps is kept by the run, and if the run fails it leaves what a call that fails
leaves: `Keeps` says so of the calls, and `Keeps.of_none`, `Keeps.of_finished`
and `Keeps.of_failed` of the run.

What every call keeps may also be a relation between the states of two
devices, if from related states they give the same answer. Then a run goes the
same way with either (`Device.Relates.runFor`). The state of a device may be
part of a larger one, or have notes beside it: that is the graph of a map
between the states (`Device.Mirrors`).
-/

namespace Brainfuck

variable {σ τ ε : Type} {policies : Policies} {device : Device (StateM σ) ε}

/-- The calls of a run that ends, all of which succeed but the last one of a
run that fails. -/
theorem Ends.answers {p : Program} {machine : Machine} {s t : σ} {outcome : Outcome ε}
    (h : Ends policies device (.start p machine) s outcome t) :
    ∃ calls, device.Answers calls s t ∧ outcome.EndsWith machine.tape.size calls := by
  obtain ⟨fuel, hrun⟩ := h
  obtain ⟨calls, hcalls, hother⟩ := runFor_answers hrun
  have hrecorded : Ends policies device.recorded (.start p machine) ([], s) outcome (calls, t) :=
    ⟨fuel, hother device.recorded _ _
      (recorded_answers_iff.2 ⟨(List.append_nil calls).symm, hcalls⟩)⟩
  exact ⟨calls, hcalls, (Config.unfailed_start p machine).ends hrecorded⟩

/-- The calls that a run has made before it ends have succeeded. -/
theorem Moves.unfailed_answers {n : Nat} {p : Program} {machine : Machine} {c : Config} {s t : σ}
    (h : Moves policies device n (.start p machine) s c t) :
    ∃ calls, device.Answers calls s t ∧ (∀ call ∈ calls, call.error? = none) ∧
      ∀ {τ : Type} (other : Device (StateM τ) ε) (u u' : τ), other.Answers calls u u' →
        Moves policies other n (.start p machine) u c u' := by
  obtain ⟨calls, hcalls, hother⟩ := h.answers
  have hrecorded : Moves policies device.recorded n (.start p machine) ([], s) c (calls, t) :=
    hother device.recorded _ _ (recorded_answers_iff.2 ⟨(List.append_nil calls).symm, hcalls⟩)
  exact ⟨calls, hcalls, ((Config.unfailed_start p machine).moves hrecorded).calls, hother⟩

/-! ## Invariants -/

/-- `I` holds after a call that succeeded, and `J` after one that failed. -/
def Answered {α : Type} (I : σ → Prop) (J : ε → σ → Prop) : Except ε α × σ → Prop
  | (.ok _, s) => I s
  | (.error e, s) => J e s

/-- A call that succeeds keeps `I`, and one that fails turns it into `J`. -/
structure Device.Keeps (device : Device (StateM σ) ε) (I : σ → Prop) (J : ε → σ → Prop) :
    Prop where
  read : ∀ s, I s → Answered I J (device.read s)
  write : ∀ c s, I s → Answered I J (device.write c s)

namespace Device.Keeps

variable {I : σ → Prop} {J : ε → σ → Prop} {p : Program} {machine m : Machine} {s t : σ}

/-- What is left after a call, by the error that it notes. -/
theorem ask (h : device.Keeps I J) {call : Call ε} (hask : device.ask call.request s = (call, t))
    (hs : I s) : (call.error? = none → I t) ∧ ∀ e, call.error? = some e → J e t := by
  cases call with
  | read answer =>
    have ht := h.read s hs
    obtain ⟨hcall, rfl⟩ := Prod.mk.inj hask
    rcases hr : device.read s with ⟨e | c, u⟩ <;> rw [hr] at ht hcall <;> cases hcall
    · exact ⟨nofun, fun _ he => Option.some.inj he ▸ ht⟩
    · exact ⟨fun _ => ht, nofun⟩
  | write c answer =>
    have ht := h.write c s hs
    obtain ⟨hcall, rfl⟩ := Prod.mk.inj hask
    rcases hw : device.write c s with ⟨e | _, u⟩ <;> rw [hw] at ht hcall <;> cases hcall
    · exact ⟨nofun, fun _ he => Option.some.inj he ▸ ht⟩
    · exact ⟨fun _ => ht, nofun⟩

/-- Calls that succeed keep `I`, however many there are. -/
theorem of_answers (h : device.Keeps I J) {calls : List (Call ε)}
    (ha : device.Answers calls s t) (hok : ∀ call ∈ calls, call.error? = none) (hs : I s) :
    I t := by
  induction ha with
  | nil => exact hs
  | cons _ hask ih =>
    have ht := ih (fun call hc => hok call (List.mem_cons_of_mem _ hc)) hs
    exact (h.ask hask ht).1 (hok _ (List.mem_cons_self ..))

/-- A run that has not ended has kept `I` so far. -/
theorem of_none (h : device.Keeps I J) {fuel : Nat}
    (hrun : runFor policies device fuel (.start p machine) s = (none, t)) (hs : I s) : I t := by
  obtain ⟨c, hmoves⟩ := runFor_eq_none_iff.1 hrun
  obtain ⟨calls, ha, hok, -⟩ := hmoves.unfailed_answers
  exact h.of_answers ha hok hs

/-- **A run that finishes keeps `I`.** -/
theorem of_finished (h : device.Keeps I J)
    (he : Ends policies device (.start p machine) s (.finished m) t) (hs : I s) : I t := by
  obtain ⟨calls, ha, hends⟩ := he.answers
  cases hends with
  | finished _ hok => exact h.of_answers ha hok hs

/-- **A run that fails turns `I` into `J`**, with the error of its last
call. -/
theorem of_failed (h : device.Keeps I J) {f : Failure ε}
    (he : Ends policies device (.start p machine) s (.failed f m) t) (hs : I s) :
    ∃ e, f = .device e ∧ J e t := by
  obtain ⟨calls, ha, hends⟩ := he.answers
  cases hends with
  | failed _ herror hok =>
    cases ha with
    | cons hearlier hask =>
      exact ⟨_, rfl, (h.ask hask (h.of_answers hearlier hok hs)).2 _ herror⟩

end Device.Keeps

/-! ## Relations between states -/

/-- From related states the two computations give the same answer, and they
leave related states. -/
def Related {α : Type} (R : σ → τ → Prop) (x : StateM σ α) (y : StateM τ α) : Prop :=
  ∀ s t, R s t → (y t).1 = (x s).1 ∧ R (x s).2 (y t).2

/-- A relation between the states of two devices that every call keeps. -/
structure Device.Relates (R : σ → τ → Prop) (device : Device (StateM σ) ε)
    (other : Device (StateM τ) ε) : Prop where
  read : Related R device.read other.read
  write : ∀ c, Related R (device.write c) (other.write c)

namespace Device.Relates

variable {R : σ → τ → Prop} {other : Device (StateM τ) ε}

theorem ask (h : Device.Relates R device other) (r : Request) :
    Related R (device.ask r) (other.ask r) := by
  intro s t hst
  cases r with
  | read =>
    obtain ⟨hanswer, hleft⟩ := h.read s t hst
    exact ⟨congrArg Call.read hanswer, hleft⟩
  | write c =>
    obtain ⟨hanswer, hleft⟩ := h.write c s t hst
    exact ⟨congrArg (Call.write c) hanswer, hleft⟩

/-- Calls get the same answers from related states. -/
theorem answers (h : Device.Relates R device other) {calls : List (Call ε)} {s u : σ} {t : τ}
    (ha : device.Answers calls s u) (hst : R s t) : ∃ v, other.Answers calls t v ∧ R u v := by
  induction ha with
  | nil => exact ⟨t, .nil t, hst⟩
  | @cons call calls s u u' _ hask ih =>
    obtain ⟨v, hcalls, huv⟩ := ih hst
    obtain ⟨hanswer, hleft⟩ := h.ask call.request u v huv
    rw [hask] at hanswer hleft
    exact ⟨_, .cons hcalls (Prod.ext hanswer rfl), hleft⟩

/-- **A run keeps what its calls keep.** -/
theorem runFor (h : Device.Relates R device other) (fuel : Nat) (c : Config) :
    Related R (Brainfuck.runFor policies device fuel c)
      (Brainfuck.runFor policies other fuel c) := by
  intro s t hst
  obtain ⟨calls, ha, hother⟩ := runFor_answers (rfl : Brainfuck.runFor policies device fuel c s = _)
  obtain ⟨v, hcalls, hleft⟩ := h.answers ha hst
  have hrun : Brainfuck.runFor policies other fuel c t = _ := hother other t v hcalls
  rw [hrun]
  exact ⟨rfl, hleft⟩

end Device.Relates

/-! ## Maps between states -/

/-- The second computation does on the image of a state what the first does
on the state. -/
def Mirrored {α : Type} (f : σ → τ) (x : StateM σ α) (y : StateM τ α) : Prop :=
  ∀ s, y (f s) = ((x s).1, f (x s).2)

theorem mirrored_iff {α : Type} {f : σ → τ} {x : StateM σ α} {y : StateM τ α} :
    Mirrored f x y ↔ Related (fun s t => t = f s) x y := by
  constructor
  · rintro h s _ rfl
    rw [h s]
    exact ⟨rfl, rfl⟩
  · intro h s
    exact Prod.ext_iff.2 (h s (f s) rfl)

namespace Mirrored

variable {α β : Type} {f : σ → τ}

theorem pure (a : α) : Mirrored f (Pure.pure a : StateM σ α) (Pure.pure a : StateM τ α) :=
  fun _ => rfl

theorem bind {x : StateM σ α} {y : StateM τ α} {k : α → StateM σ β} {l : α → StateM τ β}
    (h : Mirrored f x y) (hk : ∀ a, Mirrored f (k a) (l a)) : Mirrored f (x >>= k) (y >>= l) := by
  intro s
  change l (y (f s)).1 (y (f s)).2 = _
  rw [h s]
  exact hk _ _

end Mirrored

/-- A map between the states of two devices that every call respects. -/
structure Device.Mirrors (f : σ → τ) (device : Device (StateM σ) ε)
    (other : Device (StateM τ) ε) : Prop where
  read : Mirrored f device.read other.read
  write : ∀ c, Mirrored f (device.write c) (other.write c)

/-- The graph of the map is a relation that every call keeps. -/
theorem Device.Mirrors.relates {f : σ → τ} {other : Device (StateM τ) ε}
    (h : Device.Mirrors f device other) : Device.Relates (fun s t => t = f s) device other where
  read := mirrored_iff.1 h.read
  write c := mirrored_iff.1 (h.write c)

/-- **A run respects what its calls respect.** -/
theorem Device.Mirrors.runFor {f : σ → τ} {other : Device (StateM τ) ε}
    (h : Device.Mirrors f device other) (fuel : Nat) (c : Config) :
    Mirrored f (Brainfuck.runFor policies device fuel c)
      (Brainfuck.runFor policies other fuel c) :=
  mirrored_iff.2 (h.relates.runFor fuel c)

end Brainfuck
