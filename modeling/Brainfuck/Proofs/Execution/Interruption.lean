import Brainfuck.Device.Buffer
import Brainfuck.Device.Script
import Brainfuck.Proofs.Execution.Answers
import Brainfuck.Proofs.Execution.Calls
import Brainfuck.Proofs.Execution.Failures
/-!
# A failed call interrupts a run

The calls that a run has noted are reached one at a time
(`runFor_reaches_call`): just before any of them there is a configuration
whose next move makes the call. With a device that gives the same answers up
to there and then fails, the run gets to the same configuration and ends
with it, and nothing but the count of the instruction is left of the move
(`failed_call_interrupts_run`).

`runEach` runs programs one after the other on one machine. Nothing of a
failed run is carried over to the next one but the machine and the device.
-/

namespace Brainfuck

variable {σ ε : Type} {policies : Policies} {device : Device (StateM σ) ε}

/-! ## The move that makes a call -/

theorem Machine.answered_of_error {call : Call ε} {e : ε} (h : call.error? = some e)
    (machine : Machine) : machine.answered call = .failed (.device e) machine.tick := by
  rcases call with ⟨e' | c⟩ | ⟨c, e' | _⟩
  · obtain rfl : e' = e := Option.some.inj h
    rfl
  · cases h
  · obtain rfl : e' = e := Option.some.inj h
    rfl
  · cases h

theorem Machine.answered_of_ok {call : Call ε} (h : call.error? = none) (machine : Machine) :
    ∃ next, machine.answered call = .finished next := by
  rcases call with ⟨e | c⟩ | ⟨c, e | _⟩
  · cases h
  · exact ⟨machine.tick.receive c, rfl⟩
  · cases h
  · exact ⟨machine.tick, rfl⟩

/-- Where an action makes a call that succeeds, the run goes on. -/
theorem step_call {a : Action} {rest : Program} {loops : List Frame} {machine : Machine}
    {call : Call ε} {s t : σ} (hr : a.request? machine.tape = some call.request)
    (ha : device.ask call.request s = (call, t)) (hok : call.error? = none) :
    ∃ next, Config.step policies device ⟨.act a rest, loops, machine⟩ s =
      (.next ⟨rest, loops, next⟩, t) := by
  obtain ⟨next, hnext⟩ := machine.answered_of_ok hok
  have hp : device.perform policies a machine s = (.finished next, t) := by
    rw [perform_of_request hr, ha, hnext]
  exact ⟨next, step_act hp⟩

/-- Where an action makes a call that fails, the run ends, and only the
count of the action is left of it. -/
theorem step_call_failed {a : Action} {rest : Program} {loops : List Frame} {machine : Machine}
    {r : Request} {call : Call ε} {e : ε} {s t : σ} (hr : a.request? machine.tape = some r)
    (ha : device.ask r s = (call, t)) (he : call.error? = some e) :
    Config.step policies device ⟨.act a rest, loops, machine⟩ s =
      (.ended (.failed (.device e) machine.tick), t) := by
  have hp : device.perform policies a machine s = (.failed (.device e) machine.tick, t) := by
    rw [perform_of_request hr, ha, machine.answered_of_error he]
  exact step_act_failed hp

/-- A move that notes a call performs an action that makes it. -/
theorem step_call_cases {c : Config} {next : Step ε} {call : Call ε} {calls : List (Call ε)}
    {s s' : σ}
    (h : Config.step policies device.recorded c (calls, s) = (next, call :: calls, s')) :
    ∃ a rest loops machine, c = ⟨.act a rest, loops, machine⟩ ∧
      a.request? machine.tape = some call.request ∧ device.ask call.request s = (call, s') := by
  have hnoted : call :: calls ≠ calls := List.cons_ne_self call calls
  have hact : ∀ {a : Action} {machine : Machine} {outcome : Outcome ε},
      device.recorded.perform policies a machine (calls, s) = (outcome, call :: calls, s') →
      a.request? machine.tape = some call.request ∧ device.ask call.request s = (call, s') := by
    intro a machine outcome hp
    cases hr : a.request? machine.tape with
    | none =>
      rw [perform_of_request_eq_none hr] at hp
      exact absurd (congrArg (fun x => x.2.1) hp).symm hnoted
    | some r =>
      rw [perform_of_request hr, Device.recorded_ask] at hp
      obtain ⟨-, hnotes⟩ := Prod.mk.inj hp
      obtain ⟨hnew, hs'⟩ := Prod.mk.inj hnotes
      have hcall : (device.ask r s).1 = call := (List.cons.inj hnew).1
      have hreq : call.request = r := by rw [← hcall, Device.request_ask]
      rw [hreq]
      exact ⟨rfl, Prod.ext hcall hs'⟩
  cases next with
  | next c' =>
    rcases step_cases h with ⟨f, loops, machine, -, -, hx⟩ |
      ⟨body, after, loops, machine, -, -, hx⟩ | ⟨a, rest, loops, machine, next, rfl, hp, -⟩
    · exact absurd (congrArg Prod.fst hx) hnoted
    · exact absurd (congrArg Prod.fst hx) hnoted
    · exact ⟨a, rest, loops, machine, rfl, hact hp⟩
  | ended outcome =>
    rcases step_ended_cases h with ⟨machine, -, -, hx⟩ |
      ⟨a, rest, loops, machine, f, next, rfl, hp, -⟩
    · exact absurd (congrArg Prod.fst hx) hnoted
    · exact ⟨a, rest, loops, machine, rfl, hact hp⟩

/-- **The calls of a run are reached one at a time.** -/
theorem runFor_reaches_call {fuel : Nat} {c : Config} {x : List (Call ε) × σ}
    {outcome? : Option (Outcome ε)} {call : Call ε} {later calls : List (Call ε)} {t : σ}
    (h : runFor policies device.recorded fuel c x = (outcome?, later ++ call :: calls, t))
    (hx : x.1 <:+ calls) :
    ∃ n c' s next s', Moves policies device.recorded n c x c' (calls, s) ∧
      Config.step policies device.recorded c' (calls, s) = (next, call :: calls, s') := by
  -- a log that ends with the calls alone is not the whole log
  have hshort : ∀ {log : List (Call ε)}, log <:+ calls → log ≠ later ++ call :: calls := by
    intro log hlog heq
    have hle := hlog.length_le
    have hlen := congrArg List.length heq
    simp only [List.length_append, List.length_cons] at hlen
    omega
  induction fuel generalizing c x with
  | zero =>
    obtain ⟨-, hx'⟩ := Prod.mk.inj h
    exact absurd (congrArg Prod.fst hx') (hshort hx)
  | succ fuel ih =>
    rcases hs : Config.step policies device.recorded c x with ⟨next, y⟩
    obtain ⟨new, hlen, hnew, -⟩ := step_answers hs
    obtain ⟨hy, -⟩ := recorded_answers_iff.1 hnew
    have hall : y.1 <:+ later ++ call :: calls := by
      cases next with
      | next c₁ =>
        rw [Nat.add_comm, (Moves.single hs).runFor_add] at h
        exact runFor_calls h
      | ended outcome =>
        rw [runFor_of_step_ended hs] at h
        obtain ⟨-, hy'⟩ := Prod.mk.inj h
        exact ⟨[], congrArg Prod.fst hy'⟩
    by_cases hin : y.1 <:+ calls
    · cases next with
      | next c₁ =>
        rw [Nat.add_comm, (Moves.single hs).runFor_add] at h
        obtain ⟨n, c', s, next, s', hm, hc⟩ := ih h hin
        exact ⟨n + 1, c', s, next, s', .head hs hm, hc⟩
      | ended outcome =>
        rw [runFor_of_step_ended hs] at h
        obtain ⟨-, hy'⟩ := Prod.mk.inj h
        exact absurd (congrArg Prod.fst hy') (hshort hin)
    · -- this move makes the call: the notes before it are the earlier calls
      have hcalls : call :: calls <:+ later ++ call :: calls := List.suffix_append later _
      have hlt : calls.length < y.1.length := by
        refine Nat.lt_of_not_le fun hle => hin ?_
        exact List.suffix_of_suffix_length_le hall ((List.suffix_cons call calls).trans hcalls) hle
      have hylen : y.1.length = new.length + x.1.length := by rw [hy, List.length_append]
      have hxlen := hx.length_le
      have hx₁ : x.1 = calls := hx.eq_of_length (by omega)
      have hy₁ : y.1 = call :: calls := by
        have hsuffix : call :: calls <:+ y.1 :=
          List.suffix_of_suffix_length_le hcalls hall (by rwa [List.length_cons])
        refine (hsuffix.eq_of_length ?_).symm
        rw [List.length_cons]
        omega
      obtain ⟨log, s⟩ := x
      obtain ⟨log', s'⟩ := y
      obtain rfl : log = calls := hx₁
      obtain rfl : log' = call :: log := hy₁
      exact ⟨0, c, s, next, s', .refl _ _, hs⟩

/-! ## Runs one after the other -/

/-- Runs programs one after the other on one machine. After a run that fails
the next one starts on the machine that it has left; after a run that has
not ended within the bound nothing starts. -/
def runEach {m : Type → Type} [Monad m] (policies : Policies) (device : Device m ε) (fuel : Nat) :
    List Program → Machine → m (List (Option (Outcome ε)))
  | [], _ => pure []
  | p :: ps, machine => do
    match ← run policies device fuel p machine with
    | some outcome => return some outcome :: (← runEach policies device fuel ps outcome.machine)
    | none => return [none]

theorem runEach_of_run {fuel : Nat} {p : Program} {machine : Machine} {s t : σ}
    {outcome : Outcome ε}
    (h : runFor policies device fuel (.start p machine) s = (some outcome, t)) (ps : List Program) :
    runEach policies device fuel (p :: ps) machine s =
      (some outcome :: (runEach policies device fuel ps outcome.machine t).1,
        (runEach policies device fuel ps outcome.machine t).2) := by
  simp only [runEach, run, bind, StateT.bind, h]
  rfl

theorem runEach_of_run_eq_none {fuel : Nat} {p : Program} {machine : Machine} {s t : σ}
    (h : runFor policies device fuel (.start p machine) s = (none, t)) (ps : List Program) :
    runEach policies device fuel (p :: ps) machine s = ([none], t) := by
  simp only [runEach, run, bind, StateT.bind, h]
  rfl

/-- Notes of earlier calls stay below those of a run, and do nothing to
it. -/
theorem runFor_recorded_append (fuel : Nat) (c : Config) (old : List (Call ε)) (s : σ) :
    runFor policies device.recorded fuel c (old, s) =
      ((runFor policies device.recorded fuel c ([], s)).1,
        (runFor policies device.recorded fuel c ([], s)).2.1 ++ old,
        (runFor policies device.recorded fuel c ([], s)).2.2) := by
  rcases h : runFor policies device.recorded fuel c ([], s) with ⟨outcome?, log, t⟩
  obtain ⟨calls, hcalls, hother⟩ := runFor_answers h
  obtain ⟨rfl, hbelow⟩ := recorded_answers_iff.1 hcalls
  rw [List.append_nil]
  exact hother device.recorded _ _ (recorded_answers_iff.2 ⟨rfl, hbelow⟩)

/-- So it is with runs one after the other. -/
theorem runEach_recorded_append (fuel : Nat) (ps : List Program) (machine : Machine)
    (old : List (Call ε)) (s : σ) :
    runEach policies device.recorded fuel ps machine (old, s) =
      ((runEach policies device.recorded fuel ps machine ([], s)).1,
        (runEach policies device.recorded fuel ps machine ([], s)).2.1 ++ old,
        (runEach policies device.recorded fuel ps machine ([], s)).2.2) := by
  induction ps generalizing machine old s with
  | nil => rfl
  | cons p ps ih =>
    have hrun : runFor policies device.recorded fuel (.start p machine) (old, s) = _ :=
      runFor_recorded_append fuel (.start p machine) old s
    rcases h : runFor policies device.recorded fuel (.start p machine) ([], s) with
      ⟨_ | outcome, log, t⟩
    · rw [h] at hrun
      rw [runEach_of_run_eq_none h, runEach_of_run_eq_none hrun]
    · rw [h] at hrun
      rw [runEach_of_run h, runEach_of_run hrun, ih outcome.machine log t,
        ih outcome.machine (log ++ old) t, List.append_assoc]

/-! ## The interruption -/

/-- **A call that fails ends the run at once.** Let a run have made some
calls with one device, the last of them counted with success, and let
another device give the same answers to all but the last, which fails there.
Then the run with the other device makes these calls and no more, and ends
with that error, with the cells and the cursor of the configuration in which
the first run makes the last of the calls and with one more instruction than
are counted there. Programs that run on the same machine afterwards run as
they do from the start on that machine, with the device as the failed call
has left it. -/
theorem failed_call_interrupts_run {τ : Type} {other : Device (StateM τ) ε} {p : Program}
    {machine : Machine} {fuel : Nat} {outcome? : Option (Outcome ε)} {s t : σ} {u v : τ}
    {later calls : List (Call ε)} {call failing : Call ε} {e : ε}
    (hrun : runFor policies device.recorded fuel (.start p machine) ([], s) =
      (outcome?, later ++ call :: calls, t))
    (hcall : call.error? = none) (hsame : other.Answers calls u v) {w : τ}
    (hask : other.ask call.request v = (failing, w)) (hfails : failing.error? = some e) :
    ∃ n c s₁ c' s₂ left,
      Moves policies device.recorded n (.start p machine) ([], s) c (calls, s₁) ∧
      Config.step policies device.recorded c (calls, s₁) = (.next c', call :: calls, s₂) ∧
      left = ⟨c.machine.tape, c.machine.steps + 1⟩ ∧
      Ends policies other.recorded (.start p machine) ([], u) (.failed (.device e) left)
        (failing :: calls, w) ∧
      ∃ enough, ∀ fuel, enough ≤ fuel → ∀ qs answers log w',
        runEach policies other.recorded fuel qs left ([], w) = (answers, log, w') →
        runEach policies other.recorded fuel (p :: qs) machine ([], u) =
          (some (.failed (.device e) left) :: answers, log ++ failing :: calls, w') := by
  obtain ⟨n, c, s₁, next, s₂, hm, hs⟩ := runFor_reaches_call hrun List.nil_suffix
  obtain ⟨a, rest, loops, before, rfl, hr, ha⟩ := step_call_cases hs
  -- the first run goes on with the answer to its call
  have hgoes : ∃ next', Config.step policies device.recorded ⟨.act a rest, loops, before⟩
      (calls, s₁) = (.next ⟨rest, loops, next'⟩, call :: calls, s₂) :=
    step_call hr (by rw [Device.recorded_ask, ha]) hcall
  obtain ⟨next', hs'⟩ := hgoes
  -- the other run gets to the same configuration and fails there
  have hmoves : Moves policies other.recorded n (.start p machine) ([], u)
      ⟨.act a rest, loops, before⟩ (calls, v) := by
    obtain ⟨made, hmade, hother⟩ := hm.answers
    obtain ⟨hlog, -⟩ := recorded_answers_iff.1 hmade
    rw [List.append_nil] at hlog
    rw [← hlog] at hother
    exact hother other.recorded _ _ (recorded_answers_iff.2 ⟨(List.append_nil calls).symm, hsame⟩)
  have hlast : Config.step policies other.recorded ⟨.act a rest, loops, before⟩ (calls, v) =
      (.ended (.failed (.device e) ⟨before.tape, before.steps + 1⟩), failing :: calls, w) :=
    step_call_failed hr (by rw [Device.recorded_ask, hask]) hfails
  have hends := ends_iff.2 ⟨n, _, _, hmoves, hlast⟩
  refine ⟨n, ⟨.act a rest, loops, before⟩, s₁, ⟨rest, loops, next'⟩, s₂,
    ⟨before.tape, before.steps + 1⟩, hm, hs', rfl, hends, ?_⟩
  obtain ⟨enough, henough⟩ := hends
  refine ⟨enough, ?_⟩
  intro fuel hle qs answers log w' hqs
  rw [runEach_of_run (runFor_mono hle henough), Outcome.machine, runEach_recorded_append, hqs]

/-- Reads how many characters to copy, and copies them. -/
def copyCounted : Program :=
  .act .input (.loop (.act (.move 1) (.act .input (.act .output
    (.act (.move (-1)) (.act (.add 255) .nil))))) .nil)

/-- Streams with the number two and two characters to copy, of which the
second cannot be written. -/
def brokenOff : Script := { input := .text ['\x02', 'a', 'b'], plan := { writes := [1] } }

/-- The calls of `copyCounted` before it writes the second character. -/
def callsBeforeBreak : List (Call CharFailure) :=
  [.read (.ok 'b'), .write 'a' (.ok ()), .read (.ok 'a'), .read (.ok '\x02')]

/-- The streams after these calls and so many writes in all. -/
def brokenOffAfter (writes : Nat) : Script :=
  { brokenOff with
    input := .text [], reads := 3, writes := writes, flushes := 4, written := "a" }

/-- What `copyCounted` leaves when it cannot write the second character. -/
def brokenOffMachine : Machine := ⟨⟨#[1, 98], 1, by decide⟩, 10⟩

/-- A buffer with the same input goes through `copyCounted`. Over streams
that fail at the second character it ends in the second round of the loop,
after ten instructions and with that character in its cell, from where a
further program writes it. -/
theorem failed_call_interrupts_run_copyCounted :
    runFor ⟨.wrap, .wrap⟩ Buffer.device.recorded 20
      (.start copyCounted ⟨.blank 2 (by decide), 0⟩) ([], ⟨['\x02', 'a', 'b'], ""⟩) =
      (some (.finished ⟨⟨#[0, 98], 0, by decide⟩, 12⟩),
        .write 'b' (.ok ()) :: callsBeforeBreak, ⟨[], "ab"⟩) ∧
    Ends ⟨.wrap, .wrap⟩ Script.streams.device.recorded
      (.start copyCounted ⟨.blank 2 (by decide), 0⟩) ([], brokenOff)
      (.failed (.device (.output "write 1 failed")) brokenOffMachine)
      (.write 'b' (.error (.output "write 1 failed")) :: callsBeforeBreak, brokenOffAfter 2) ∧
    ∃ enough, ∀ fuel, enough ≤ fuel → ∀ answers log t,
      runEach ⟨.wrap, .wrap⟩ Script.streams.device.recorded fuel [.act .output .nil]
        brokenOffMachine ([], brokenOffAfter 2) = (answers, log, t) →
      runEach ⟨.wrap, .wrap⟩ Script.streams.device.recorded fuel
        [copyCounted, .act .output .nil] ⟨.blank 2 (by decide), 0⟩ ([], brokenOff) =
        (some (.failed (.device (.output "write 1 failed")) brokenOffMachine) :: answers,
          log ++ .write 'b' (.error (.output "write 1 failed")) :: callsBeforeBreak, t) := by
  have hrun : runFor ⟨.wrap, .wrap⟩ Buffer.device.recorded 20
      (.start copyCounted ⟨.blank 2 (by decide), 0⟩) ([], ⟨['\x02', 'a', 'b'], ""⟩) =
      (some (.finished ⟨⟨#[0, 98], 0, by decide⟩, 12⟩),
        .write 'b' (.ok ()) :: callsBeforeBreak, ⟨[], "ab"⟩) := rfl
  have hsame : Script.streams.device.Answers callsBeforeBreak brokenOff (brokenOffAfter 1) :=
    .cons (.cons (.cons (.cons (.nil _) rfl) rfl) rfl) rfl
  have hask : Script.streams.device.ask (.write 'b') (brokenOffAfter 1) =
      (.write 'b' (.error (.output "write 1 failed")), brokenOffAfter 2) := rfl
  obtain ⟨n, c, s₁, c', s₂, left, -, -, -, hends, enough, hrest⟩ :=
    failed_call_interrupts_run (show _ = (_, [] ++ _ :: callsBeforeBreak, _) from hrun) rfl hsame
      hask rfl
  have hleft : Ends ⟨.wrap, .wrap⟩ Script.streams.device.recorded
      (.start copyCounted ⟨.blank 2 (by decide), 0⟩) ([], brokenOff)
      (.failed (.device (.output "write 1 failed")) brokenOffMachine)
      (.write 'b' (.error (.output "write 1 failed")) :: callsBeforeBreak, brokenOffAfter 2) :=
    ⟨20, rfl⟩
  have hmachine : left = brokenOffMachine := by
    obtain ⟨houtcome, -⟩ := hends.unique hleft
    exact (Outcome.failed.inj houtcome).2
  subst hmachine
  exact ⟨hrun, hleft, enough, fun fuel hle answers log t hqs => hrest fuel hle _ _ _ _ hqs⟩

end Brainfuck
