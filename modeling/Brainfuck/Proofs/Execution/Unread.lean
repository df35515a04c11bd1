import Brainfuck.Device.Buffer
import Brainfuck.Proofs.Execution.Invariants
/-!
# Input that is not read yet

A run over a buffer takes one character at a time and looks at nothing
behind it. More input behind the input that is there therefore changes no
move of the run, as long as the run does not ask for a character that is not
there (`Moves.followedBy`): a run that finishes leaves the additional input
unread, and a run that ends for want of input gets to the same instruction
with the additional input and goes on from there
(`additional_input_stays_unread`).
-/

namespace Brainfuck

variable {policies : Policies}

namespace Buffer

/-- The buffer with more input behind what is unread. -/
def followedBy (v : List Char) (b : Buffer) : Buffer := ⟨b.unread ++ v, b.written⟩

variable {b b' : Buffer} {calls : List (Call CharFailure)}

/-- A call that succeeds gets the same answer with more input behind. -/
theorem ask_followedBy {call : Call CharFailure} (v : List Char)
    (h : device.ask call.request b = (call, b')) (hok : call.error? = none) :
    device.ask call.request (b.followedBy v) = (call, b'.followedBy v) := by
  obtain ⟨unread, written⟩ := b
  cases call with
  | write c answer =>
    cases h
    rfl
  | read answer =>
    cases unread with
    | nil =>
      cases h
      cases hok
    | cons c cs =>
      cases h
      rfl

/-- So do calls in a row. -/
theorem answers_followedBy (v : List Char) (h : device.Answers calls b b')
    (hok : ∀ call ∈ calls, call.error? = none) :
    device.Answers calls (b.followedBy v) (b'.followedBy v) := by
  induction h with
  | nil b => exact .nil _
  | @cons call calls b₀ b₁ b₂ _ ha ih =>
    have hcall : call.error? = none := hok call (List.mem_cons_self ..)
    have hcalls : ∀ call ∈ calls, call.error? = none :=
      fun call hc => hok call (List.mem_cons_of_mem _ hc)
    exact .cons (ih hcalls) (ask_followedBy v ha hcall)

/-- Calls only add to what is written. -/
theorem written_of_answers (h : device.Answers calls b b') :
    ∃ more, b'.written = b.written ++ more := by
  induction h with
  | nil b => exact ⟨"", String.append_empty.symm⟩
  | @cons call calls b₀ b₁ b₂ _ ha ih =>
    obtain ⟨more, hmore⟩ := ih
    obtain ⟨unread, written⟩ := b₁
    cases call with
    | write c answer =>
      cases ha
      have hwritten : written = b₀.written ++ more := hmore
      refine ⟨more ++ String.singleton c, ?_⟩
      change written.push c = _
      rw [hwritten, String.push_eq_append, String.append_assoc]
    | read answer =>
      cases unread <;>
      · cases ha
        exact ⟨more, hmore⟩

end Buffer

/-- What fails on a buffer is a read where nothing is left. -/
theorem perform_buffer_failed {a : Action} {machine next : Machine} {b b' : Buffer}
    {f : Failure CharFailure}
    (h : Buffer.device.perform policies a machine b = (.failed f next, b')) :
    a = .input ∧ b.unread = [] ∧ b' = b ∧ next = machine.tick := by
  obtain ⟨unread, written⟩ := b
  cases a with
  | move | add =>
    rw [perform_of_isSilent rfl] at h
    cases h
  | output =>
    rw [perform_output] at h
    cases h
  | input =>
    rw [perform_input] at h
    cases unread with
    | nil =>
      cases h
      exact ⟨rfl, rfl, rfl, rfl⟩
    | cons c cs => cases h

/-- **More input behind changes no move.** -/
theorem Moves.followedBy {n : Nat} {p : Program} {machine : Machine} {c : Config} {b b' : Buffer}
    (h : Moves policies Buffer.device n (.start p machine) b c b') (v : List Char) :
    Moves policies Buffer.device n (.start p machine) (b.followedBy v) c (b'.followedBy v) := by
  obtain ⟨calls, hcalls, hok, hother⟩ := h.unfailed_answers
  exact hother Buffer.device _ _ (Buffer.answers_followedBy v hcalls hok)

/-- **Additional input stays unread until all other input is read.** A run
that finishes on some input finishes with more input behind it as well, with
the same cells, cursor, number of instructions and output, and leaves what
is behind unread. A run that ends for want of input gets, with more input
behind, to the same read instruction, with exactly the first input consumed
and the same cells, cursor, output and number of instructions, the read
among them; so whatever it writes from there on, it has written the output
of the short run before. -/
theorem additional_input_stays_unread (p : Program) (machine : Machine) (u v : List Char)
    (written : String) :
    (∀ next u' written',
      Ends policies Buffer.device (.start p machine) ⟨u, written⟩ (.finished next)
        ⟨u', written'⟩ →
      Ends policies Buffer.device (.start p machine) ⟨u ++ v, written⟩ (.finished next)
        ⟨u' ++ v, written'⟩) ∧
    ∀ next u' written',
      Ends policies Buffer.device (.start p machine) ⟨u, written⟩
        (.failed (.device .exhausted) next) ⟨u', written'⟩ →
      u' = [] ∧ ∃ n rest loops before, next = before.tick ∧
        Moves policies Buffer.device n (.start p machine) ⟨u, written⟩
          ⟨.act .input rest, loops, before⟩ ⟨[], written'⟩ ∧
        Moves policies Buffer.device n (.start p machine) ⟨u ++ v, written⟩
          ⟨.act .input rest, loops, before⟩ ⟨v, written'⟩ ∧
        (∀ fuel outcome? b, n ≤ fuel →
          runFor policies Buffer.device fuel (.start p machine) ⟨u ++ v, written⟩ =
            (outcome?, b) →
          ∃ more, b.written = written' ++ more) ∧
        ∀ outcome b,
          Ends policies Buffer.device (.start p machine) ⟨u ++ v, written⟩ outcome b →
          ∃ more, b.written = written' ++ more := by
  constructor
  · intro next u' written' he
    obtain ⟨n, c, b, hm, hs⟩ := ends_iff.1 he
    rcases step_ended_cases hs with ⟨m, rfl, ho, hb⟩ | ⟨a, rest, loops, m, f, m', -, -, ho⟩
    · have hlong := hm.followedBy v
      rw [← hb] at hlong
      obtain rfl : next = m := by
        cases ho
        rfl
      exact hlong.ends ⟨1, runFor_done 0 next _⟩
    · cases ho
  · intro next u' written' he
    obtain ⟨n, c, b, hm, hs⟩ := ends_iff.1 he
    rcases step_ended_cases hs with ⟨m, -, ho, -⟩ | ⟨a, rest, loops, m, f, m', rfl, hp, ho⟩
    · cases ho
    · cases ho
      obtain ⟨rfl, hnone, hb, rfl⟩ := perform_buffer_failed hp
      obtain rfl : b = ⟨u', written'⟩ := hb.symm
      obtain rfl : u' = [] := hnone
      have hlong := hm.followedBy v
      -- what the longer run does after these moves, it does from the read on
      have hlater : ∀ fuel outcome? b, n ≤ fuel →
          runFor policies Buffer.device fuel (.start p machine) ⟨u ++ v, written⟩ =
            (outcome?, b) →
          ∃ more, b.written = written' ++ more := by
        intro fuel outcome? b hle hr
        obtain ⟨more, rfl⟩ := Nat.exists_eq_add_of_le hle
        have hrest := (hlong.runFor_add more).symm.trans hr
        obtain ⟨calls, hcalls, -⟩ := runFor_answers hrest
        exact Buffer.written_of_answers hcalls
      refine ⟨rfl, n, rest, loops, m, rfl, hm, hlong, hlater, ?_⟩
      rintro outcome b ⟨fuel, hr⟩
      exact hlater fuel (some outcome) b (hlong.runFor_sub hr).1 hr

/-- Copies characters up to the first that is zero. -/
def copyToZero : Program := .act .input (.loop (.act .output (.act .input .nil)) .nil)

/-- With `copyToZero` on a single cell, `c` stays unread behind `a`, zero and
`z`; behind `a` and `b` it is what the third read gets, the sixth
instruction. -/
theorem additional_input_stays_unread_copyToZero :
    Ends ⟨.wrap, .wrap⟩ Buffer.device (.start copyToZero ⟨.blank 1 (by decide), 0⟩)
      ⟨['a', '\x00', 'z'] ++ ['c'], ""⟩ (.finished ⟨⟨#[0], 0, by decide⟩, 4⟩)
      ⟨['z'] ++ ['c'], "a"⟩ ∧
    ∃ n rest loops before, ⟨⟨#[98], 0, by decide⟩, 6⟩ = Machine.tick before ∧
      Moves ⟨.wrap, .wrap⟩ Buffer.device n (.start copyToZero ⟨.blank 1 (by decide), 0⟩)
        ⟨['a', 'b'] ++ ['c'], ""⟩ ⟨.act .input rest, loops, before⟩ ⟨['c'], "ab"⟩ := by
  have hfinished : Ends ⟨.wrap, .wrap⟩ Buffer.device
      (.start copyToZero ⟨.blank 1 (by decide), 0⟩) ⟨['a', '\x00', 'z'], ""⟩
      (.finished ⟨⟨#[0], 0, by decide⟩, 4⟩) ⟨['z'], "a"⟩ := ⟨7, rfl⟩
  have hfailed : Ends ⟨.wrap, .wrap⟩ Buffer.device
      (.start copyToZero ⟨.blank 1 (by decide), 0⟩) ⟨['a', 'b'], ""⟩
      (.failed (.device .exhausted) ⟨⟨#[98], 0, by decide⟩, 6⟩) ⟨[], "ab"⟩ := ⟨8, rfl⟩
  refine ⟨(additional_input_stays_unread copyToZero _ _ ['c'] "").1 _ _ _ hfinished, ?_⟩
  obtain ⟨-, n, rest, loops, before, hbefore, -, hm, -⟩ :=
    (additional_input_stays_unread copyToZero _ _ ['c'] "").2 _ _ _ hfailed
  exact ⟨n, rest, loops, before, hbefore, hm⟩

end Brainfuck
