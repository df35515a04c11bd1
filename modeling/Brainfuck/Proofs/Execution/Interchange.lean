import Brainfuck.Device.Buffer
import Brainfuck.Proofs.Execution.Composition
import Brainfuck.Proofs.Execution.StreamCalls
/-!
# Streams that never fail are a buffer

Streams serve a buffer if none of their calls fails, and what they hand out
and take is what the buffer hands out and takes (`Streams.Serve`). The device
over such streams is then related to the buffer, call by call
(`Streams.Serve.relates`), so a run over the one goes as a run over the other.

A script that has no failure left in its plan serves the buffer of the
characters that it still holds: those of its text, or its raw bytes each as
the character of its code (`Script.serve`). What a run over either comes to is
`buffer_of_streams`.
-/

namespace Brainfuck

variable {σ : Type}

/-! ## Streams that serve a buffer -/

/-- No call of the streams fails, and it does with their state what it would
do with the buffer that the state is related to. -/
structure Streams.Serve (streams : Streams (StateM σ)) (R : σ → Buffer → Prop) : Prop where
  read : ∀ s b, R s b →
    ∃ t, streams.read s = (.ok b.unread.head?, t) ∧ R t ⟨b.unread.tail, b.written⟩
  write : ∀ text s b, R s b →
    ∃ t, streams.write text s = (.ok (), t) ∧ R t ⟨b.unread, b.written ++ text⟩
  flush : ∀ s b, R s b → ∃ t, streams.flush s = (.ok (), t) ∧ R t b

/-- **Every call of the device over the streams is a call of the buffer.** -/
theorem Streams.Serve.relates {streams : Streams (StateM σ)} {R : σ → Buffer → Prop}
    (h : streams.Serve R) : Device.Relates R streams.device Buffer.device where
  read s b hsb := by
    obtain ⟨t, hflush, htb⟩ := h.flush s b hsb
    obtain ⟨u, hread, hub⟩ := h.read t b htb
    rw [Streams.device_read, hflush]
    simp only [hread]
    obtain ⟨unread, written⟩ := b
    cases unread with
    | nil => exact ⟨rfl, hub⟩
    | cons c rest => exact ⟨rfl, hub⟩
  write c s b hsb := by
    obtain ⟨t, hwrite, htb⟩ := h.write (String.singleton c) s b hsb
    obtain ⟨u, hflush, hub⟩ := h.flush t _ htb
    rw [Streams.device_write, hwrite]
    simp only [hflush]
    have hpush : b.written.push c = b.written ++ String.singleton c :=
      (String.append_singleton).symm
    refine ⟨rfl, ?_⟩
    rw [← hpush] at hub
    exact hub

/-! ## Scripts -/

/-- The characters that are still to be read. -/
def StreamInput.characters : StreamInput → List Char
  | .text unread => unread
  | .raw unread => unread.map Char.ofUInt8

/-- The next character, and what is left behind it. -/
theorem StreamInput.next_eq (input : StreamInput) :
    ∃ rest, input.next = (input.characters.head?, rest) ∧
      rest.characters = input.characters.tail := by
  rcases input with (_ | ⟨c, cs⟩) | (_ | ⟨b, bs⟩) <;> exact ⟨_, rfl, rfl⟩

namespace Script

/-- The buffer with the same characters to read and the same text written. -/
def buffer (s : Script) : Buffer := ⟨s.input.characters, s.written⟩

/-- The plan has no failure for a call that is still to come. -/
structure NeverFails (s : Script) : Prop where
  read : ∀ number ∈ s.plan.reads, number < s.reads
  write : ∀ number ∈ s.plan.writes, number < s.writes
  flush : ∀ number ∈ s.plan.flushes, number < s.flushes

/-- The calls of a script that never fails. -/
theorem serve : streams.Serve fun s b => s.NeverFails ∧ b = s.buffer where
  read := by
    rintro s _ ⟨hs, rfl⟩
    have hplan : s.reads ∉ s.plan.reads := fun hmem => Nat.lt_irrefl _ (hs.read _ hmem)
    obtain ⟨rest, hnext, hrest⟩ := s.input.next_eq
    refine ⟨{ s with reads := s.reads + 1, input := rest }, ?_, ?_, ?_⟩
    · simp only [streams, hplan, if_false, hnext, buffer]
    · exact ⟨fun number hmem => Nat.lt_succ_of_lt (hs.read number hmem), hs.write, hs.flush⟩
    · rw [buffer, buffer, hrest]
  write := by
    rintro text s _ ⟨hs, rfl⟩
    have hplan : s.writes ∉ s.plan.writes := fun hmem => Nat.lt_irrefl _ (hs.write _ hmem)
    refine ⟨{ s with writes := s.writes + 1, written := s.written ++ text }, ?_, ?_, rfl⟩
    · simp only [streams, hplan, if_false]
    · exact ⟨hs.read, fun number hmem => Nat.lt_succ_of_lt (hs.write number hmem), hs.flush⟩
  flush := by
    rintro s _ ⟨hs, rfl⟩
    have hplan : s.flushes ∉ s.plan.flushes := fun hmem => Nat.lt_irrefl _ (hs.flush _ hmem)
    refine ⟨{ s with flushes := s.flushes + 1 }, ?_, ?_, rfl⟩
    · simp only [streams, hplan, if_false]
    · exact ⟨hs.read, hs.write, fun number hmem => Nat.lt_succ_of_lt (hs.flush number hmem)⟩

end Script

/-! ## Runs -/

/-- A buffer fails at the end of its input only. -/
theorem Buffer.keeps_device :
    Buffer.device.Keeps (fun _ => True) fun e b => e = .exhausted ∧ b.unread = [] where
  read b _ := by
    obtain ⟨unread, written⟩ := b
    cases unread with
    | nil => exact ⟨rfl, rfl⟩
    | cons c rest => exact trivial
  write _ _ _ := trivial

/-- **Streams that never fail do what a buffer does.** Take streams of text or
of raw bytes, no call of which fails from here on, and the buffer of the same
characters: the characters of the text, or those whose codes are the bytes. For
every number of moves, a run of a program over the buffer is at the outcome of
the run over the streams, with the same machine, the same text written and the
same characters left. So they end in the same ways, the only failure being that
the input is exhausted, and one of them comes to no end exactly if the other
comes to none. -/
theorem buffer_of_streams {x : Script} (hx : x.NeverFails) (policies : Policies) (p : Program)
    (machine : Machine) :
    (∀ fuel, run policies Buffer.device fuel p machine x.buffer =
      Prod.map id Script.buffer (run policies Script.streams.device fuel p machine x)) ∧
    (∀ outcome b, Ends policies Buffer.device (.start p machine) x.buffer outcome b ↔
      ∃ y, Ends policies Script.streams.device (.start p machine) x outcome y ∧ y.buffer = b) ∧
    (∀ failure left b,
      Ends policies Buffer.device (.start p machine) x.buffer (.failed failure left) b →
        failure = .device .exhausted ∧ b.unread = []) ∧
    (Diverges (run policies Buffer.device · p) machine x.buffer ↔
      Diverges (run policies Script.streams.device · p) machine x) := by
  have hrun : ∀ fuel, run policies Buffer.device fuel p machine x.buffer =
      Prod.map id Script.buffer (run policies Script.streams.device fuel p machine x) := by
    intro fuel
    obtain ⟨houtcome, -, hleft⟩ :=
      Script.serve.relates.runFor fuel (Config.start p machine) x x.buffer ⟨hx, rfl⟩
    exact Prod.ext houtcome hleft
  refine ⟨hrun, fun outcome b => ⟨?_, ?_⟩, ?_, ?_⟩
  · rintro ⟨fuel, hends⟩
    obtain ⟨houtcome, hleft⟩ := Prod.mk.inj ((hrun fuel).symm.trans hends)
    exact ⟨_, ⟨fuel, Prod.ext houtcome rfl⟩, hleft⟩
  · rintro ⟨y, ⟨fuel, hends⟩, rfl⟩
    have hstreams : run policies Script.streams.device fuel p machine x = (some outcome, y) := hends
    have hbuffer : run policies Buffer.device fuel p machine x.buffer =
        (some outcome, y.buffer) := by
      rw [hrun fuel, hstreams]
      rfl
    exact ⟨fuel, hbuffer⟩
  · intro failure left b hends
    obtain ⟨e, rfl, rfl, hunread⟩ := Buffer.keeps_device.of_failed hends trivial
    exact ⟨rfl, hunread⟩
  · refine forall_congr' fun fuel => ?_
    have houtcome := congrArg Prod.fst (hrun fuel)
    exact iff_of_eq (congrArg (· = none) houtcome)

/-- Raw bytes of which two are left: the first flush was to fail, and is over.
The program asks for a third, and what a buffer of the two characters comes to
is what the streams come to. -/
theorem buffer_of_streams_exhausted :
    Script.NeverFails ⟨.raw [0xc4, 0x81], ⟨[], [], [0]⟩, "", 0, 0, 1⟩ ∧
    Ends ⟨.wrap, .wrap⟩ Buffer.device
      (.start (.act .input (.act .output (.act .input (.act .input .nil))))
        ⟨⟨#[0], 0, by decide⟩, 0⟩) ⟨['\xc4', '\x81'], ""⟩
      (.failed (.device .exhausted) ⟨⟨#[0x81], 0, by decide⟩, 4⟩) ⟨[], "".push '\xc4'⟩ := by
  have hplan : Script.NeverFails ⟨.raw [0xc4, 0x81], ⟨[], [], [0]⟩, "", 0, 0, 1⟩ :=
    ⟨by decide, by decide, by decide⟩
  obtain ⟨-, hends, -⟩ := buffer_of_streams hplan ⟨.wrap, .wrap⟩
    (.act .input (.act .output (.act .input (.act .input .nil)))) ⟨⟨#[0], 0, by decide⟩, 0⟩
  exact ⟨hplan, (hends _ _).2 ⟨_, ⟨5, rfl⟩, by decide⟩⟩

end Brainfuck
