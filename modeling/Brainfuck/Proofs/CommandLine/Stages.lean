import Brainfuck.CommandLine.Run
/-!
# The stages of the command

The command on a system with a state, written as a function of that state:
one equation for each stage, in terms of the calls of the system and of the
stage that follows. What a stage does to the state is read off these
equations; only the notes of the log are a loop, and what every message keeps
is kept by them (`System.note_keeps`).
-/

namespace Brainfuck.CommandLine

/-- The arguments ask for a run of a file, with options that are accepted. -/
structure Arguments.Asks (a : Arguments) (file : String) (o : Options) : Prop where
  file : a.file = some file
  options : ∃ size n, a.size = some size ∧ a.optimize = some n ∧
    Options.ofIntegers size a.policies (passCount n) = .ok o

namespace System

variable {σ : Type} (sys : System (StateM σ)) (fuel : Nat) (a : Arguments) (s : σ)

theorem bind_apply {α β : Type} (x : StateM σ α) (f : α → StateM σ β) :
    (x >>= f) s = f (x s).1 (x s).2 :=
  rfl

theorem failFile_apply (e : FileError) :
    sys.failFile e s =
      if e.fault = .zeroCharacter then (some (.aborted .zeroCharacter), s)
      else sys.stop 1 ("Error: " ++ e.message) s := by
  unfold failFile
  split <;> rfl

theorem note_nil : (sys.note a [] s).2 = s := by
  unfold note
  split <;> rfl

/-- **What every message keeps is kept by the notes.** -/
theorem note_keeps (I : σ → Prop) (h : ∀ message t, I t → I (sys.report message t).2)
    (events : List Event) {s : σ} (hs : I s) : I (sys.note a events s).2 := by
  unfold note
  split
  · induction events generalizing s with
    | nil => exact hs
    | cons e rest ih => exact ih (h e.line s hs)
  · exact hs

/-- What is noted of the optimizer, if it is on. -/
def compileEvents (o : Options) (p : Program) : List Event :=
  if o.optimization.isSome then
    Event.ofPasses p 1 (o.passes p) ++ [.optimized p.count (o.compile p).count]
  else []

theorem writeTape_apply (cells : List UInt8) :
    sys.writeTape a cells s =
      match a.output, a.format with
      | none, none => (some (.code 0), s)
      | none, some f =>
        match sys.streams.write ("\n" ++ String.ofList (Dump.text f (Dump.trimZeros cells))) s with
        | (.ok (), t) => (some (.code 0), t)
        | (.error reason, t) => (some (.aborted (.dumpFailed reason)), t)
      | some none, _ => (some (.aborted .missingValue), s)
      | some (some path), _ =>
        match sys.create path (Dump.bytes a.fileFormat true cells) s with
        | (.error e, t) => sys.failFile e t
        | (.ok (), t) =>
          (some (.code 0),
            (sys.note a [.wrote (Dump.bytes a.fileFormat true cells).length path] t).2) := by
  unfold writeTape
  rcases a.output with _ | _ | path
  · rcases a.format with _ | f
    · rfl
    · simp only [bind_apply]
      rcases sys.streams.write ("\n" ++ String.ofList (Dump.text f (Dump.trimZeros cells))) s
        with ⟨_ | _, t⟩ <;> rfl
  · rfl
  · simp only [bind_apply]
    rcases sys.create path (Dump.bytes a.fileFormat true cells) s with ⟨_ | _, t⟩ <;> rfl

theorem runProgram_apply (o : Options) (file : String) (p : Program) :
    sys.runProgram fuel a o file p s =
      match o.run sys.streams.device fuel p (sys.stopwatch s).2 with
      | (none, t) => (none, t)
      | (some (.failed (.device e) _), t) =>
        match e.diagnostic? with
        | some d => sys.failWith file d t
        | none => sys.fail e.message t
      | (some (.failed (.fault f) _), t) => (some (.aborted (.tape f)), t)
      | (some (.finished machine), t) =>
        sys.writeTape a machine.tape.cells.toList
          (sys.note a [.executed machine.steps ((sys.stopwatch s).1 t).1]
            ((sys.stopwatch s).1 t).2).2 := by
  unfold runProgram
  simp only [bind_apply]
  rcases o.run sys.streams.device fuel p (sys.stopwatch s).2 with ⟨_ | m | ⟨f | e, m⟩, t⟩
  · rfl
  · rfl
  · rfl
  · simp only
    cases e.diagnostic? <;> rfl

/-- Prints a compiled program or runs it. -/
def printOrRun (o : Options) (file : String) (p : Program) : StateM σ Ending := fun s =>
  if a.emit then
    match sys.streams.write (p.text ++ "\n") s with
    | (.ok (), t) => (some (.code 0), t)
    | (.error reason, t) => sys.fail reason t
  else sys.runProgram fuel a o file p s

theorem runFile_apply (o : Options) (file : String) :
    sys.runFile fuel a o file s =
      match sys.openSource file s with
      | (.error e, t) => sys.failFile e t
      | (.ok source, t) =>
        match Program.ofReplies source with
        | .error (.bracket e) => sys.failWith file e.diagnostic t
        | .error (.read e) =>
          match e.diagnostic? with
          | some d => sys.failWith file d t
          | none => (some (.aborted (.foreignSource e)), t)
        | .ok p =>
          sys.printOrRun fuel a o file (o.compile p)
            (sys.note a (compileEvents o p) (sys.note a [.parsed p] t).2).2 := by
  unfold runFile
  simp only [bind_apply]
  rcases sys.openSource file s with ⟨e | source, t⟩
  · rfl
  · simp only
    rcases Program.ofReplies source with ⟨e | e⟩ | p
    · rfl
    · simp only
      cases e.diagnostic? <;> rfl
    · simp only [bind_apply, compileEvents, printOrRun]
      generalize hparsed : (sys.note a [.parsed p] t).2 = u
      cases o.optimization.isSome with
      | true =>
        simp only [if_true]
        generalize hnoted : (sys.note a (Event.ofPasses p 1 (o.passes p) ++
          [.optimized p.count (o.compile p).count]) u).2 = v
        cases a.emit with
        | true =>
          simp only [bind_apply, hnoted, if_true]
          rcases sys.streams.write ((o.compile p).text ++ "\n") v with ⟨_ | _, w⟩ <;> rfl
        | false => simp only [bind_apply, hnoted, Bool.false_eq_true, if_false]
      | false =>
        simp only [note_nil, Bool.false_eq_true, if_false]
        cases a.emit with
        | true =>
          simp only [bind_apply, if_true]
          rcases sys.streams.write ((o.compile p).text ++ "\n") u with ⟨_ | _, w⟩ <;> rfl
        | false => rfl

theorem runArguments_of_asks {file : String} {o : Options} (h : a.Asks file o)
    (hfile : (sys.isDirectory file s).1 = false) :
    sys.runArguments fuel a s = sys.runFile fuel a o file (sys.isDirectory file s).2 := by
  obtain ⟨hf, size, n, hsize, hoptimize, ho⟩ := h
  have hpos : ¬ size ≤ 0 := by
    intro hle
    rw [Options.ofIntegers, dif_neg (Int.not_lt.2 hle)] at ho
    cases ho
  unfold runArguments
  simp only [hf, bind_apply, hfile, hsize, hoptimize, if_neg hpos, ho, Bool.false_eq_true, if_false]

/-- **The arguments ask for a run of a file or are refused**, before the file
is opened. -/
theorem runArguments_cases :
    (∃ file o, a.Asks file o ∧ (sys.isDirectory file s).1 = false) ∨
    ∃ t, (t = s ∨ ∃ file, t = (sys.isDirectory file s).2) ∧
      ((∃ message, ∀ fuel, sys.runArguments fuel a s = sys.fail message t) ∨
        ∀ fuel, sys.runArguments fuel a s = (some (.aborted .missingValue), t)) := by
  unfold runArguments
  cases hf : a.file with
  | none => exact Or.inr ⟨s, Or.inl rfl, Or.inl ⟨_, fun _ => rfl⟩⟩
  | some file =>
    simp only [bind_apply]
    cases hdir : (sys.isDirectory file s).1 with
    | true => exact Or.inr ⟨_, Or.inr ⟨file, rfl⟩, Or.inl ⟨_, fun _ => rfl⟩⟩
    | false =>
      simp only [Bool.false_eq_true, if_false]
      cases hsize : a.size with
      | none => exact Or.inr ⟨_, Or.inr ⟨file, rfl⟩, Or.inr fun _ => rfl⟩
      | some size =>
        by_cases hle : size ≤ 0
        · simp only [if_pos hle]
          exact Or.inr ⟨_, Or.inr ⟨file, rfl⟩, Or.inl ⟨_, fun _ => rfl⟩⟩
        · simp only [if_neg hle]
          cases hoptimize : a.optimize with
          | none => exact Or.inr ⟨_, Or.inr ⟨file, rfl⟩, Or.inr fun _ => rfl⟩
          | some n =>
            simp only
            cases ho : Options.ofIntegers size a.policies (passCount n) with
            | error e => exact Or.inr ⟨_, Or.inr ⟨file, rfl⟩, Or.inl ⟨_, fun _ => rfl⟩⟩
            | ok o => exact Or.inl ⟨file, o, ⟨hf, size, n, hsize, hoptimize, ho⟩, hdir⟩

end System

/-- A disk with a source, and streams of which some writes fail. -/
def sourceWorld (source : List UInt8) (failing : List Nat) : World where
  script := { input := .text [], plan := { writes := failing } }
  disk := { files := [(["f"], source)] }

end Brainfuck.CommandLine
