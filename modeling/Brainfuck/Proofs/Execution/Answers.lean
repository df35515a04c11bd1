import Brainfuck.Proofs.Execution.Actions
import Brainfuck.Proofs.Execution.Moves
/-!
# A run is determined by the answers to its calls

A program meets its device in calls only. `Device.Answers` says that a
device gives the answers of some calls when these are made one after
another, and which state it ends up in. Whatever a run does, it has made
some calls, and with any other device that gives the same answers to them
the same configurations follow one another: `step_answers` for one move,
`Moves.answers` and `runFor_answers` for many. The states of the two devices
need not have anything in common.

A device that notes its calls gives the answers of the device below it, and
what it has noted before does not matter: `recorded_answers_iff`.
-/

namespace Brainfuck

variable {σ ε : Type} {policies : Policies} {device : Device (StateM σ) ε}

/-! ## Requests and answers -/

/-- What a program asks of a device. -/
inductive Request where
  | read
  | write (c : Char)
  deriving DecidableEq, Repr

/-- What a call asks for. -/
def Call.request : Call ε → Request
  | .read _ => .read
  | .write c _ => .write c

/-- Makes a call. -/
def Device.ask (device : Device (StateM σ) ε) : Request → StateM σ (Call ε)
  | .read => fun s => (.read (device.read s).1, (device.read s).2)
  | .write c => fun s => (.write c (device.write c s).1, (device.write c s).2)

@[simp] theorem Device.request_ask (r : Request) (s : σ) :
    (device.ask r s).1.request = r := by
  cases r <;> rfl

/-- Calls that are made one after another, noted latest first, get these
answers and lead from one state of the device to another. -/
inductive Device.Answers (device : Device (StateM σ) ε) : List (Call ε) → σ → σ → Prop where
  | nil (s : σ) : Answers device [] s s
  | cons {call : Call ε} {calls : List (Call ε)} {s t u : σ} :
      Answers device calls s t → device.ask call.request t = (call, u) →
      Answers device (call :: calls) s u

namespace Device.Answers

variable {call : Call ε} {calls later : List (Call ε)} {s t u : σ}

/-- One call. -/
theorem single (h : device.ask call.request s = (call, t)) : device.Answers [call] s t :=
  .cons (.nil s) h

theorem single_ask (r : Request) (s : σ) :
    device.Answers [(device.ask r s).1] s (device.ask r s).2 :=
  .single (by rw [request_ask]; rfl)

theorem ask_of_single (h : device.Answers [call] s t) :
    device.ask call.request s = (call, t) := by
  cases h with
  | cons hn ha =>
    cases hn
    exact ha

/-- Calls follow one another. -/
theorem append (h : device.Answers calls s t) (h' : device.Answers later t u) :
    device.Answers (later ++ calls) s u := by
  induction h' with
  | nil => exact h
  | cons _ ha ih => exact .cons (ih h) ha

/-- The calls of two rows are made as the rows are. -/
theorem of_append (h : device.Answers (later ++ calls) s u) :
    ∃ t, device.Answers calls s t ∧ device.Answers later t u := by
  induction later generalizing u with
  | nil => exact ⟨u, h, .nil u⟩
  | cons call later ih =>
    cases h with
    | cons h ha =>
      obtain ⟨t, hc, hl⟩ := ih h
      exact ⟨t, hc, .cons hl ha⟩

end Device.Answers

theorem Device.recorded_ask (r : Request) (x : List (Call ε) × σ) :
    device.recorded.ask r x =
      ((device.ask r x.2).1, (device.ask r x.2).1 :: x.1, (device.ask r x.2).2) := by
  cases r <;> rfl

/-- **What was noted before does not matter.** A device that notes its calls
answers as the device below it, and adds the calls to its notes. -/
theorem recorded_answers_iff {calls old new : List (Call ε)} {s t : σ} :
    device.recorded.Answers calls (old, s) (new, t) ↔
      new = calls ++ old ∧ device.Answers calls s t := by
  constructor
  · intro h
    induction calls generalizing new t with
    | nil =>
      cases h
      exact ⟨rfl, .nil s⟩
    | cons call calls ih =>
      cases h with
      | @cons _ _ _ y _ h ha =>
        obtain ⟨noted, u⟩ := y
        obtain ⟨rfl, hbelow⟩ := ih h
        rw [Device.recorded_ask] at ha
        obtain ⟨hcall, hrest⟩ := Prod.mk.inj ha
        obtain ⟨hnew, ht⟩ := Prod.mk.inj hrest
        refine ⟨?_, .cons hbelow (Prod.ext hcall ht)⟩
        rw [← hnew, hcall, List.cons_append]
  · rintro ⟨rfl, h⟩
    induction h with
    | nil => exact .nil _
    | @cons call calls s t u _ ha ih =>
      refine .cons ih ?_
      rw [Device.recorded_ask, ha, List.cons_append]

/-! ## Actions -/

/-- The call that an action makes on a tape, if it makes one. -/
def Action.request? (a : Action) (t : Tape) : Option Request :=
  match a with
  | .move _ => none
  | .add _ => none
  | .output => some (.write t.currentChar)
  | .input => some .read

/-- What an action comes to when its call is answered. -/
def Machine.answered (machine : Machine) : Call ε → Outcome ε
  | .read (.ok c) => .finished (machine.tick.receive c)
  | .read (.error e) => .failed (.device e) machine.tick
  | .write _ (.ok ()) => .finished machine.tick
  | .write _ (.error e) => .failed (.device e) machine.tick

/-- An action that makes a call comes to what the answer says. -/
theorem perform_of_request {a : Action} {machine : Machine} {r : Request}
    (h : a.request? machine.tape = some r) (s : σ) :
    device.perform policies a machine s =
      (machine.answered (device.ask r s).1, (device.ask r s).2) := by
  cases a with
  | move | add => cases h
  | output =>
    obtain rfl := Option.some.inj h
    simp only [perform_output, Device.ask]
    rcases device.write machine.tape.currentChar s with ⟨_ | _, t⟩ <;> rfl
  | input =>
    obtain rfl := Option.some.inj h
    simp only [perform_input, Device.ask]
    rcases device.read s with ⟨_ | _, t⟩ <;> rfl

/-- An action that makes no call is done without one. -/
theorem perform_of_request_eq_none {a : Action} {machine : Machine}
    (h : a.request? machine.tape = none) (s : σ) :
    device.perform policies a machine s =
      (.finished ⟨a.tapeAfter policies machine.tape, machine.steps + 1⟩, s) := by
  have hsilent : a.isSilent = true := by
    cases a with
    | move | add => rfl
    | output | input => cases h
  exact perform_of_isSilent hsilent machine s

/-- **An action knows its device by one answer at most.** -/
theorem perform_answers {a : Action} {machine : Machine} {s s' : σ} {outcome : Outcome ε}
    (h : device.perform policies a machine s = (outcome, s')) :
    ∃ calls, calls.length ≤ 1 ∧ device.Answers calls s s' ∧
      ∀ {τ : Type} (other : Device (StateM τ) ε) (t t' : τ), other.Answers calls t t' →
        other.perform policies a machine t = (outcome, t') := by
  cases hr : a.request? machine.tape with
  | none =>
    rw [perform_of_request_eq_none hr] at h
    cases h
    refine ⟨[], Nat.zero_le 1, .nil s, ?_⟩
    intro τ other t t' ht
    cases ht
    exact perform_of_request_eq_none hr t
  | some r =>
    rw [perform_of_request hr] at h
    cases h
    refine ⟨[(device.ask r s).1], Nat.le_refl 1, .single_ask r s, ?_⟩
    intro τ other t t' ht
    have hask := ht.ask_of_single
    rw [Device.request_ask] at hask
    rw [perform_of_request hr, hask]

/-! ## Moves and runs -/

/-- **A move knows its device by one answer at most.** -/
theorem step_answers {c : Config} {next : Step ε} {s s' : σ}
    (h : Config.step policies device c s = (next, s')) :
    ∃ calls, calls.length ≤ 1 ∧ device.Answers calls s s' ∧
      ∀ {τ : Type} (other : Device (StateM τ) ε) (t t' : τ), other.Answers calls t t' →
        Config.step policies other c t = (next, t') := by
  cases next with
  | next c' =>
    rcases step_cases h with ⟨f, loops, machine, rfl, rfl, rfl⟩ |
      ⟨body, after, loops, machine, rfl, rfl, rfl⟩ | ⟨a, rest, loops, machine, next, rfl, hp, rfl⟩
    · refine ⟨[], Nat.zero_le 1, .nil s', ?_⟩
      intro τ other t t' ht
      cases ht
      exact step_frame f loops machine t
    · refine ⟨[], Nat.zero_le 1, .nil s', ?_⟩
      intro τ other t t' ht
      cases ht
      exact step_loop body after loops machine t
    · obtain ⟨calls, hlen, hcalls, hother⟩ := perform_answers hp
      exact ⟨calls, hlen, hcalls, fun other t t' ht => step_act (hother other t t' ht)⟩
  | ended outcome =>
    rcases step_ended_cases h with ⟨machine, rfl, rfl, rfl⟩ |
      ⟨a, rest, loops, machine, f, next, rfl, hp, rfl⟩
    · refine ⟨[], Nat.zero_le 1, .nil s', ?_⟩
      intro τ other t t' ht
      cases ht
      rfl
    · obtain ⟨calls, hlen, hcalls, hother⟩ := perform_answers hp
      exact ⟨calls, hlen, hcalls, fun other t t' ht => step_act_failed (hother other t t' ht)⟩

/-- **Moves are the same with every device that answers alike.** -/
theorem Moves.answers {n : Nat} {c c' : Config} {s s' : σ}
    (h : Moves policies device n c s c' s') :
    ∃ calls, device.Answers calls s s' ∧
      ∀ {τ : Type} (other : Device (StateM τ) ε) (t t' : τ), other.Answers calls t t' →
        Moves policies other n c t c' t' := by
  induction h with
  | refl c s =>
    refine ⟨[], .nil s, ?_⟩
    intro τ other t t' ht
    cases ht
    exact .refl c t
  | head hs _ ih =>
    obtain ⟨first, -, hfirst, hstep⟩ := step_answers hs
    obtain ⟨later, hlater, hmoves⟩ := ih
    refine ⟨later ++ first, hfirst.append hlater, ?_⟩
    intro τ other t t' ht
    obtain ⟨u, hu, hu'⟩ := ht.of_append
    exact .head (hstep other t u hu) (hmoves other u t' hu')

/-- **A run is the same with every device that answers alike**, whether it
has ended or not. -/
theorem runFor_answers {fuel : Nat} {c : Config} {s s' : σ} {outcome? : Option (Outcome ε)}
    (h : runFor policies device fuel c s = (outcome?, s')) :
    ∃ calls, device.Answers calls s s' ∧
      ∀ {τ : Type} (other : Device (StateM τ) ε) (t t' : τ), other.Answers calls t t' →
        runFor policies other fuel c t = (outcome?, t') := by
  induction fuel generalizing c s with
  | zero =>
    cases h
    refine ⟨[], .nil _, ?_⟩
    intro τ other t t' ht
    cases ht
    rfl
  | succ fuel ih =>
    rcases hs : Config.step policies device c s with ⟨c₁ | outcome, s₁⟩
    · obtain ⟨first, -, hfirst, hstep⟩ := step_answers hs
      rw [Nat.add_comm, (Moves.single hs).runFor_add] at h
      obtain ⟨later, hlater, hrun⟩ := ih h
      refine ⟨later ++ first, hfirst.append hlater, ?_⟩
      intro τ other t t' ht
      obtain ⟨u, hu, hu'⟩ := ht.of_append
      rw [Nat.add_comm, (Moves.single (hstep other t u hu)).runFor_add]
      exact hrun other u t' hu'
    · obtain ⟨calls, -, hcalls, hstep⟩ := step_answers hs
      rw [runFor_of_step_ended hs] at h
      cases h
      refine ⟨calls, hcalls, ?_⟩
      intro τ other t t' ht
      exact runFor_of_step_ended (hstep other t t' ht)

end Brainfuck
