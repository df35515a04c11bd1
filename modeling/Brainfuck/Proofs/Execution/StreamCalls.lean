import Brainfuck.Device.Script
import Brainfuck.Proofs.Execution.Invariants
/-!
# The calls of streams

A device over streams makes up to two calls of them for each of its own: it
passes on what was written before it reads and after it writes. What the
calls of the streams keep is kept by the device (`Streams.Keeps.device`).

`Streams.recorded` notes every call of streams and its answer, in order, and
`delivered` reads off the notes what the streams have taken. What a script has
written changes with the writes that succeed and with no other call
(`Script.write_cases`).
-/

namespace Brainfuck

variable {σ τ κ : Type} {streams : Streams (StateM σ)}

/-! ## The calls of the device -/

/-- A read of the device, by the answers of the streams. -/
theorem Streams.device_read (s : σ) : streams.device.read s =
    match streams.flush s with
    | (.error reason, t) => (.error (.flush reason), t)
    | (.ok (), t) =>
      match streams.read t with
      | (.error reason, u) => (.error (.input reason), u)
      | (.ok none, u) => (.error .exhausted, u)
      | (.ok (some c), u) => (.ok c, u) := by
  simp only [device, bind, StateT.bind]
  rcases streams.flush s with ⟨_ | _, t⟩
  · rfl
  · simp only [StateT.bind]
    rcases streams.read t with ⟨_ | _ | c, u⟩ <;> rfl

/-- A write of the device. -/
theorem Streams.device_write (c : Char) (s : σ) : streams.device.write c s =
    match streams.write (String.singleton c) s with
    | (.error reason, t) => (.error (.output reason), t)
    | (.ok (), t) =>
      match streams.flush t with
      | (.error reason, u) => (.error (.output reason), u)
      | (.ok (), u) => (.ok (), u) := by
  simp only [device, bind, StateT.bind]
  rcases streams.write (String.singleton c) s with ⟨_ | _, t⟩
  · rfl
  · simp only [StateT.bind]
    rcases streams.flush t with ⟨_ | _, u⟩ <;> rfl

/-! ## Invariants -/

/-- A call that succeeds keeps `I`, and one that fails turns it into `J`. -/
structure Streams.Keeps (streams : Streams (StateM σ)) (I J : σ → Prop) : Prop where
  read : ∀ s, I s → Answered I (fun _ => J) (streams.read s)
  write : ∀ text s, I s → Answered I (fun _ => J) (streams.write text s)
  flush : ∀ s, I s → Answered I (fun _ => J) (streams.flush s)

/-- **The device keeps what its streams keep.** Its calls also fail at the end
of the input, where no call of the streams has failed. -/
theorem Streams.Keeps.device {I J : σ → Prop} (h : streams.Keeps I J) :
    streams.device.Keeps I fun _ s => I s ∨ J s where
  read s hs := by
    have hflush := h.flush s hs
    rw [device_read]
    rcases hf : streams.flush s with ⟨_ | _, t⟩ <;> rw [hf] at hflush
    · exact Or.inr hflush
    · have hread := h.read t hflush
      simp only
      rcases hr : streams.read t with ⟨_ | _ | c, u⟩ <;> rw [hr] at hread
      · exact Or.inr hread
      · exact Or.inl hread
      · exact hread
  write c s hs := by
    have hwrite := h.write (String.singleton c) s hs
    rw [device_write]
    rcases hw : streams.write (String.singleton c) s with ⟨_ | _, t⟩ <;> rw [hw] at hwrite
    · exact Or.inr hwrite
    · have hflush := h.flush t hwrite
      simp only
      rcases hf : streams.flush t with ⟨_ | _, u⟩ <;> rw [hf] at hflush
      · exact Or.inr hflush
      · exact hflush

/-! ## Maps between states -/

/-- A map between the states of two streams that every call respects. -/
structure Streams.Mirrors (f : σ → τ) (streams : Streams (StateM σ))
    (other : Streams (StateM τ)) : Prop where
  read : Mirrored f streams.read other.read
  write : ∀ text, Mirrored f (streams.write text) (other.write text)
  flush : Mirrored f streams.flush other.flush

/-- The devices over the streams respect the map as well. -/
theorem Streams.Mirrors.device {f : σ → τ} {other : Streams (StateM τ)}
    (h : Streams.Mirrors f streams other) : Device.Mirrors f streams.device other.device where
  read := by
    refine h.flush.bind fun flushed => ?_
    cases flushed with
    | error reason => exact .pure _
    | ok _ =>
      refine h.read.bind fun answer => ?_
      rcases answer with reason | _ | c <;> exact .pure _
  write c := by
    refine (h.write (String.singleton c)).bind fun written => ?_
    cases written with
    | error reason => exact .pure _
    | ok _ =>
      refine h.flush.bind fun flushed => ?_
      cases flushed <;> exact .pure _

/-! ## Notes -/

/-- A call of streams with the answer it got. -/
inductive StreamCall where
  | read (answer : Except String (Option Char))
  | write (text : String) (answer : Except String Unit)
  | flush (answer : Except String Unit)

/-- Why a call failed, if it did. -/
def StreamCall.error? : StreamCall → Option String
  | read (.error reason) => some reason
  | write _ (.error reason) => some reason
  | flush (.error reason) => some reason
  | _ => none

/-- The same streams with a note of every call, latest first. -/
def Streams.recorded (note : StreamCall → κ) (streams : Streams (StateM σ)) :
    Streams (StateM (List κ × σ)) where
  read := fun (log, s) =>
    let (answer, s) := streams.read s
    (answer, note (.read answer) :: log, s)
  write text := fun (log, s) =>
    let (answer, s) := streams.write text s
    (answer, note (.write text answer) :: log, s)
  flush := fun (log, s) =>
    let (answer, s) := streams.flush s
    (answer, note (.flush answer) :: log, s)

/-- Notes change nothing about the streams. -/
theorem Streams.mirrors_recorded (note : StreamCall → κ) (streams : Streams (StateM σ)) :
    Streams.Mirrors Prod.snd (streams.recorded note) streams :=
  ⟨fun _ => rfl, fun _ _ => rfl, fun _ => rfl⟩

/-- What notes of calls keep is said of one note at a time. -/
theorem Streams.keeps_recorded {note : StreamCall → κ} {I J : List κ → Prop}
    (hok : ∀ call log, call.error? = none → I log → I (note call :: log))
    (hfailed : ∀ call log reason, call.error? = some reason → I log → J (note call :: log)) :
    (streams.recorded note).Keeps (fun x => I x.1) fun x => J x.1 := by
  constructor
  · rintro ⟨log, s⟩ hlog
    simp only [Streams.recorded]
    rcases streams.read s with ⟨reason | _, t⟩
    · exact hfailed (.read (.error reason)) log reason rfl hlog
    · exact hok (.read (.ok _)) log rfl hlog
  · rintro text ⟨log, s⟩ hlog
    simp only [Streams.recorded]
    rcases streams.write text s with ⟨reason | _, t⟩
    · exact hfailed (.write text (.error reason)) log reason rfl hlog
    · exact hok (.write text (.ok _)) log rfl hlog
  · rintro ⟨log, s⟩ hlog
    simp only [Streams.recorded]
    rcases streams.flush s with ⟨reason | _, t⟩
    · exact hfailed (.flush (.error reason)) log reason rfl hlog
    · exact hok (.flush (.ok _)) log rfl hlog

/-! ## What was written -/

/-- What streams have taken, by the notes of their calls: the texts of the
writes that succeeded, in order. -/
def delivered : List StreamCall → String
  | [] => ""
  | .write text (.ok ()) :: earlier => delivered earlier ++ text
  | _ :: earlier => delivered earlier

theorem delivered_append (later earlier : List StreamCall) :
    delivered (later ++ earlier) = delivered earlier ++ delivered later := by
  induction later with
  | nil => exact String.append_empty.symm
  | cons call later ih =>
    cases call with
    | read | flush => exact ih
    | write text answer =>
      cases answer with
      | error reason => exact ih
      | ok _ =>
        change delivered (later ++ earlier) ++ text = _
        rw [ih, String.append_assoc]
        rfl

theorem Script.written_read (s : Script) : (Script.streams.read s).2.written = s.written := by
  by_cases h : s.reads ∈ s.plan.reads <;> simp only [Script.streams, h, if_true, if_false]

theorem Script.written_flush (s : Script) : (Script.streams.flush s).2.written = s.written := by
  by_cases h : s.flushes ∈ s.plan.flushes <;> simp only [Script.streams, h, if_true, if_false]

/-- A write that fails adds nothing. -/
theorem Script.write_cases (text : String) (s : Script) :
    (∃ reason t, Script.streams.write text s = (.error reason, t) ∧ t.written = s.written) ∨
    ∃ t, Script.streams.write text s = (.ok (), t) ∧ t.written = s.written ++ text := by
  by_cases h : s.writes ∈ s.plan.writes <;> simp only [Script.streams, h, if_true, if_false]
  · exact Or.inl ⟨_, _, rfl, rfl⟩
  · exact Or.inr ⟨_, rfl, rfl⟩

end Brainfuck
