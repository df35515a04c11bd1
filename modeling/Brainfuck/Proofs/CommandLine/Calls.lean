import Brainfuck.Proofs.CommandLine.Stages
import Brainfuck.Proofs.Execution.StreamCalls
/-!
# The calls of a system

A command meets its system in calls. A map between the states of two systems
that every call respects is respected by the whole command
(`System.Mirrors.main`). What every call keeps is kept by the command as well,
since the system then works on the states alone that have it
(`System.Keeps.main`).

`System.recorded` notes every call that can fail and every message. The notes
change nothing: the command does with them what it does without
(`System.main_recorded`).
-/

namespace Brainfuck.CommandLine

variable {σ τ : Type}

/-! ## Maps between states -/

/-- A map between the states of two systems that every call respects, also
that of a stopwatch. -/
structure System.Mirrors (f : σ → τ) (sys : System (StateM σ)) (other : System (StateM τ)) :
    Prop where
  streams : Streams.Mirrors f sys.streams other.streams
  isDirectory : ∀ path, Mirrored f (sys.isDirectory path) (other.isDirectory path)
  openSource : ∀ path, Mirrored f (sys.openSource path) (other.openSource path)
  content? : ∀ path, Mirrored f (sys.content? path) (other.content? path)
  create : ∀ path data, Mirrored f (sys.create path data) (other.create path data)
  report : ∀ message, Mirrored f (sys.report message) (other.report message)
  stopwatch : ∀ s, (other.stopwatch (f s)).2 = f (sys.stopwatch s).2 ∧
    Mirrored f (sys.stopwatch s).1 (other.stopwatch (f s)).1

namespace System.Mirrors

variable {f : σ → τ} {sys : System (StateM σ)} {other : System (StateM τ)}
  (h : System.Mirrors f sys other) (fuel : Nat) (a : Arguments)

include h

theorem stop (code : Nat) (message : String) :
    Mirrored f (sys.stop code message) (other.stop code message) :=
  (h.report message).bind fun _ => .pure _

theorem failFile (e : FileError) : Mirrored f (sys.failFile e) (other.failFile e) := by
  unfold System.failFile
  split
  · exact .pure _
  · exact h.stop 1 _

theorem failWith (file : String) (d : Diagnostic) :
    Mirrored f (sys.failWith file d) (other.failWith file d) :=
  (h.content? file).bind fun _ => h.stop 1 _

theorem note (events : List Event) : Mirrored f (sys.note a events) (other.note a events) := by
  unfold System.note
  split
  · induction events with
    | nil => exact .pure _
    | cons e rest ih => exact (h.report e.line).bind fun _ => ih
  · exact .pure _

theorem writeTape (cells : List UInt8) :
    Mirrored f (sys.writeTape a cells) (other.writeTape a cells) := by
  unfold System.writeTape
  split
  · exact .pure _
  · refine (h.streams.write _).bind fun answer => ?_
    cases answer <;> exact .pure _
  · exact .pure _
  · refine (h.create _ _).bind fun answer => ?_
    cases answer with
    | error e => exact h.failFile e
    | ok _ => exact (h.note a _).bind fun _ => .pure _

theorem runProgram (o : Options) (file : String) (p : Program) :
    Mirrored f (sys.runProgram fuel a o file p) (other.runProgram fuel a o file p) := by
  intro s
  obtain ⟨hstart, hstop⟩ := h.stopwatch s
  have hrun : o.run other.streams.device fuel p (f (sys.stopwatch s).2) =
      ((o.run sys.streams.device fuel p (sys.stopwatch s).2).1,
        f (o.run sys.streams.device fuel p (sys.stopwatch s).2).2) :=
    h.streams.device.runFor fuel _ _
  simp only [runProgram_apply, hstart, hrun]
  rcases o.run sys.streams.device fuel p (sys.stopwatch s).2 with ⟨_ | m | ⟨e | e, m⟩, t⟩
  · rfl
  · simp only [hstop t, h.note a _ _]
    exact h.writeTape a _ _
  · rfl
  · simp only
    cases e.diagnostic? with
    | some d => exact h.failWith file d t
    | none => exact h.stop 1 _ t

theorem printOrRun (o : Options) (file : String) (p : Program) :
    Mirrored f (sys.printOrRun fuel a o file p) (other.printOrRun fuel a o file p) := by
  intro s
  unfold System.printOrRun
  cases a.emit with
  | false => exact h.runProgram fuel a o file p s
  | true =>
    simp only [if_true, h.streams.write _ s]
    rcases sys.streams.write (p.text ++ "\n") s with ⟨reason | _, t⟩
    · exact h.stop 1 _ t
    · rfl

theorem runFile (o : Options) (file : String) :
    Mirrored f (sys.runFile fuel a o file) (other.runFile fuel a o file) := by
  intro s
  simp only [runFile_apply, h.openSource file s]
  rcases sys.openSource file s with ⟨e | source, t⟩
  · exact h.failFile e t
  · simp only
    rcases Program.ofReplies source with ⟨e | e⟩ | p
    · exact h.failWith file _ t
    · simp only
      cases e.diagnostic? with
      | some d => exact h.failWith file d t
      | none => rfl
    · simp only [h.note a _ _]
      exact h.printOrRun fuel a o file _ _

theorem runArguments : Mirrored f (sys.runArguments fuel a) (other.runArguments fuel a) := by
  unfold System.runArguments
  cases a.file with
  | none => exact h.stop 1 _
  | some file =>
    refine (h.isDirectory file).bind fun directory => ?_
    cases directory with
    | true => exact h.stop 1 _
    | false =>
      simp only [Bool.false_eq_true, if_false]
      cases a.size with
      | none => exact .pure _
      | some size =>
        simp only
        split
        · exact h.stop 1 _
        · cases a.optimize with
          | none => exact .pure _
          | some n =>
            simp only
            cases Options.ofIntegers size a.policies (passCount n) with
            | error e => exact h.stop 1 _
            | ok o => exact h.runFile fuel a o file

/-- **The command respects what the calls of its system respect.** -/
theorem main (argv : List String) : Mirrored f (sys.main fuel argv) (other.main fuel argv) := by
  unfold System.main
  rcases Arguments.ofList argv with ⟨_ | e⟩ | a
  · exact (h.streams.write help).bind fun _ => .pure _
  · exact h.stop 2 _
  · exact h.runArguments fuel a

end System.Mirrors

/-! ## What every call keeps -/

/-- A property of the state that every call keeps, also that of a stopwatch. -/
structure System.Keeps (sys : System (StateM σ)) (I : σ → Prop) : Prop where
  read : ∀ s, I s → I (sys.streams.read s).2
  write : ∀ text s, I s → I (sys.streams.write text s).2
  flush : ∀ s, I s → I (sys.streams.flush s).2
  isDirectory : ∀ path s, I s → I (sys.isDirectory path s).2
  openSource : ∀ path s, I s → I (sys.openSource path s).2
  content? : ∀ path s, I s → I (sys.content? path s).2
  create : ∀ path data s, I s → I (sys.create path data s).2
  report : ∀ message s, I s → I (sys.report message s).2
  stopwatch : ∀ s, I s → I (sys.stopwatch s).2
  elapsed : ∀ s t, I s → I t → I ((sys.stopwatch s).1 t).2

/-- A computation that keeps a property, on the states that have it. -/
def restrict {α : Type} {I : σ → Prop} (x : StateM σ α) (h : ∀ s, I s → I (x s).2) :
    StateM {s // I s} α := fun s => ((x s.1).1, ⟨(x s.1).2, h s.1 s.2⟩)

theorem mirrored_restrict {α : Type} {I : σ → Prop} (x : StateM σ α)
    (h : ∀ s, I s → I (x s).2) : Mirrored Subtype.val (restrict x h) x :=
  fun _ => rfl

namespace System.Keeps

variable {sys : System (StateM σ)} {I : σ → Prop}

/-- The system on the states that have the property. -/
def restricted (h : sys.Keeps I) : System (StateM {s // I s}) where
  streams :=
    { read := restrict sys.streams.read h.read
      write := fun text => restrict (sys.streams.write text) (h.write text)
      flush := restrict sys.streams.flush h.flush }
  isDirectory path := restrict (sys.isDirectory path) (h.isDirectory path)
  openSource path := restrict (sys.openSource path) (h.openSource path)
  content? path := restrict (sys.content? path) (h.content? path)
  create path data := restrict (sys.create path data) (h.create path data)
  report message := restrict (sys.report message) (h.report message)
  stopwatch := fun s =>
    (restrict (sys.stopwatch s.1).1 fun t => h.elapsed s.1 t s.2,
      ⟨(sys.stopwatch s.1).2, h.stopwatch s.1 s.2⟩)

theorem mirrors (h : sys.Keeps I) : System.Mirrors Subtype.val h.restricted sys where
  streams := ⟨mirrored_restrict _ h.read, fun text => mirrored_restrict _ (h.write text),
    mirrored_restrict _ h.flush⟩
  isDirectory path := mirrored_restrict _ (h.isDirectory path)
  openSource path := mirrored_restrict _ (h.openSource path)
  content? path := mirrored_restrict _ (h.content? path)
  create path data := mirrored_restrict _ (h.create path data)
  report message := mirrored_restrict _ (h.report message)
  stopwatch s := ⟨rfl, mirrored_restrict _ fun t => h.elapsed s.1 t s.2⟩

/-- **The command keeps what its calls keep.** -/
theorem main (h : sys.Keeps I) (fuel : Nat) (argv : List String) {s : σ} (hs : I s) :
    I (sys.main fuel argv s).2 := by
  have hmain : sys.main fuel argv s = _ := h.mirrors.main fuel argv ⟨s, hs⟩
  rw [hmain]
  exact (h.restricted.main fuel argv ⟨s, hs⟩).2.2

end System.Keeps

/-! ## Notes -/

/-- A call of a system with its answer, if it can fail, or a message. -/
inductive SystemCall where
  | stream (call : StreamCall)
  | openSource (path : String) (answer : Except FileError (List Reply))
  /-- The source is read again, for a message. -/
  | content (path : String) (answer : Option (List UInt8))
  | create (path : String) (data : List UInt8) (answer : Except FileError Unit)
  | report (message : String)

/-- The operating system has failed a call. It is not asked about a path
with a zero character, and the bytes of a source are asked for up to the
first bracket that closes nothing. -/
def SystemCall.Failed : SystemCall → Prop
  | stream call => ∃ reason, call.error? = some reason
  | openSource _ (.error e) => e.fault ≠ .zeroCharacter
  | openSource _ (.ok source) =>
    ∃ reason, Program.ofReplies source = .error (.read (.failed reason))
  | content _ answer => answer = none
  | create _ _ (.error e) => e.fault ≠ .zeroCharacter
  | create _ _ (.ok ()) => False
  | report _ => False

/-- The same system with a note of every call that can fail and of every
message, latest first. -/
def System.recorded {σ : Type} (sys : System (StateM σ)) :
    System (StateM (List SystemCall × σ)) where
  streams := sys.streams.recorded .stream
  isDirectory path := fun (log, s) =>
    let (answer, s) := sys.isDirectory path s
    (answer, log, s)
  openSource path := fun (log, s) =>
    let (answer, s) := sys.openSource path s
    (answer, .openSource path answer :: log, s)
  content? path := fun (log, s) =>
    let (answer, s) := sys.content? path s
    (answer, .content path answer :: log, s)
  create path data := fun (log, s) =>
    let (answer, s) := sys.create path data s
    (answer, .create path data answer :: log, s)
  report message := fun (log, s) =>
    let (answer, s) := sys.report message s
    (answer, .report message :: log, s)
  stopwatch := fun (log, s) =>
    let (elapsed, s) := sys.stopwatch s
    (fun (log, s) =>
      let (answer, s) := elapsed s
      (answer, log, s), log, s)

section

variable {σ : Type} (sys : System (StateM σ)) (log : List SystemCall) (s : σ)

theorem System.openSource_recorded (path : String) :
    sys.recorded.openSource path (log, s) =
      ((sys.openSource path s).1, .openSource path (sys.openSource path s).1 :: log,
        (sys.openSource path s).2) :=
  rfl

theorem System.create_recorded (path : String) (data : List UInt8) :
    sys.recorded.create path data (log, s) =
      ((sys.create path data s).1, .create path data (sys.create path data s).1 :: log,
        (sys.create path data s).2) :=
  rfl

theorem System.stopwatch_recorded :
    sys.recorded.stopwatch (log, s) =
      (fun (log, t) => (((sys.stopwatch s).1 t).1, log, ((sys.stopwatch s).1 t).2), log,
        (sys.stopwatch s).2) :=
  rfl

theorem System.mirrors_recorded : System.Mirrors Prod.snd sys.recorded sys where
  streams := Streams.mirrors_recorded SystemCall.stream sys.streams
  isDirectory _ _ := rfl
  openSource _ _ := rfl
  content? _ _ := rfl
  create _ _ _ := rfl
  report _ _ := rfl
  stopwatch _ := ⟨rfl, fun _ => rfl⟩

/-- **Notes change nothing about the command.** -/
theorem System.main_recorded (fuel : Nat) (argv : List String) :
    Mirrored Prod.snd (sys.recorded.main fuel argv) (sys.main fuel argv) :=
  (mirrors_recorded sys).main fuel argv

end

end Brainfuck.CommandLine
