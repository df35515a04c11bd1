import Brainfuck.Proofs.CommandLine.Calls
import Brainfuck.Proofs.Dump
/-!
# What the notes of a command say

The notes of a system hold all that a command has asked for, latest first.
From them it can be told what was done with the streams (`streamCalls`), which
files were to be created (`creations`), whether the source that was opened
compiles (`Arguments.Compiles`), and whether its program was run and how that
went (`Arguments.Ran`): the calls of the streams are then those of a run of the
program, and no file was to be created.

The notes of a run are put in front of the notes that are there
(`run_recorded`), and what is reported before and behind it changes nothing of
this (`Arguments.Ran.of_onlyReports`). What the stages before and behind the run
note is said once, case by case, for a source (`runFile_stages`) and for a tape
(`writeTape_stages`).
-/

namespace Brainfuck.CommandLine

variable {σ : Type} {sys : System (StateM σ)} {fuel : Nat} {a : Arguments} {o : Options}
  {p : Program} {outcome? : Option (Outcome CharFailure)} {log later last : List SystemCall}
  {s t u : σ}

/-! ## Streams and files -/

/-- The call of the streams, if it is one. -/
def SystemCall.stream? : SystemCall → Option StreamCall
  | stream call => some call
  | _ => none

/-- Whether a file was to be created. -/
def SystemCall.isCreation : SystemCall → Bool
  | create _ _ _ => true
  | _ => false

/-- The calls of the streams, latest first. -/
def streamCalls (log : List SystemCall) : List StreamCall := log.filterMap SystemCall.stream?

/-- The files that were to be created, latest first. -/
def creations (log : List SystemCall) : List SystemCall := log.filter SystemCall.isCreation

theorem streamCalls_append (later log : List SystemCall) :
    streamCalls (later ++ log) = streamCalls later ++ streamCalls log :=
  List.filterMap_append

theorem creations_append (later log : List SystemCall) :
    creations (later ++ log) = creations later ++ creations log :=
  List.filter_append ..

theorem streamCalls_map_stream (calls : List StreamCall) :
    streamCalls (calls.map .stream) = calls := by
  rw [streamCalls, List.filterMap_map]
  exact List.filterMap_some

theorem creations_map_stream (calls : List StreamCall) : creations (calls.map .stream) = [] := by
  rw [creations, List.filter_map]
  exact List.map_eq_nil_iff.2 (List.filter_eq_nil_iff.2 fun _ _ => Bool.false_ne_true)

/-! ## Reports -/

/-- What has been noted since are messages, and the source that was read again
for them. -/
structure OnlyReports (log later : List SystemCall) : Prop where
  suffix : log <:+ later
  opened : ∀ file answer, SystemCall.openSource file answer ∈ later →
    SystemCall.openSource file answer ∈ log
  streamCalls_eq : streamCalls later = streamCalls log
  creations_eq : creations later = creations log

namespace OnlyReports

theorem refl (log : List SystemCall) : OnlyReports log log :=
  ⟨List.suffix_rfl, fun _ _ h => h, rfl, rfl⟩

theorem trans (h : OnlyReports log later) (h' : OnlyReports later last) : OnlyReports log last where
  suffix := h.suffix.trans h'.suffix
  opened file answer hlast := h.opened file answer (h'.opened file answer hlast)
  streamCalls_eq := h'.streamCalls_eq.trans h.streamCalls_eq
  creations_eq := h'.creations_eq.trans h.creations_eq

theorem report (message : String) (log : List SystemCall) :
    OnlyReports log (.report message :: log) :=
  ⟨List.suffix_cons .., fun _ _ h => (List.mem_cons.1 h).resolve_left nofun, rfl, rfl⟩

theorem content (path : String) (answer : Option (List UInt8)) (log : List SystemCall) :
    OnlyReports log (.content path answer :: log) :=
  ⟨List.suffix_cons .., fun _ _ h => (List.mem_cons.1 h).resolve_left nofun, rfl, rfl⟩

theorem note (sys : System (StateM σ)) (a : Arguments) (events : List Event)
    (log : List SystemCall) (s : σ) :
    OnlyReports log (sys.recorded.note a events (log, s)).2.1 :=
  sys.recorded.note_keeps a (fun x => OnlyReports log x.1)
    (fun message x h => h.trans (report message x.1)) events (refl log)

end OnlyReports

/-- A message with the source behind it is printed, and the code is 1. -/
theorem failWith_recorded (sys : System (StateM σ)) (file : String) (d : Diagnostic)
    (x : List SystemCall × σ) :
    ∃ y, sys.recorded.failWith file d x = (some (.code 1), y) ∧ OnlyReports x.1 y.1 :=
  ⟨_, rfl, (OnlyReports.content file _ x.1).trans (.report _ _)⟩

/-- A file that cannot be opened leaves a message at most. -/
theorem failFile_recorded (sys : System (StateM σ)) (e : FileError) (x : List SystemCall × σ) :
    ∃ exit y, sys.recorded.failFile e x = (some exit, y) ∧ exit ≠ .code 0 ∧
      OnlyReports x.1 y.1 := by
  rw [System.failFile_apply]
  split
  · exact ⟨_, x, rfl, nofun, .refl x.1⟩
  · exact ⟨.code 1, _, rfl, by decide, .report _ x.1⟩

/-! ## Sources and runs -/

/-- The source that the arguments name was opened, and compiles to a program
under the options that they ask for. -/
def Arguments.Compiles (a : Arguments) (log : List SystemCall) (o : Options) (p : Program) :
    Prop :=
  ∃ file source, a.Asks file o ∧ SystemCall.openSource file (.ok source) ∈ log ∧
    o.compileSource source = .ok p

/-- The states that a system comes to before a program is run on it: by looking
at files, by messages, and by the clock. -/
inductive System.Prepares (sys : System (StateM σ)) (s : σ) : σ → Prop where
  | start : Prepares sys s s
  | isDirectory {t : σ} (path : String) :
      Prepares sys s t → Prepares sys s (sys.isDirectory path t).2
  | openSource {t : σ} (path : String) :
      Prepares sys s t → Prepares sys s (sys.openSource path t).2
  | report {t : σ} (message : String) :
      Prepares sys s t → Prepares sys s (sys.report message t).2
  | stopwatch {t : σ} : Prepares sys s t → Prepares sys s (sys.stopwatch t).2

/-- The program is compiled, and nothing has been done with it yet. -/
structure Arguments.Ready (a : Arguments) (sys : System (StateM σ)) (s : σ)
    (x : List SystemCall × σ) (o : Options) (p : Program) : Prop where
  compiles : a.Compiles x.1 o p
  prepared : sys.Prepares s x.2
  streamCalls_eq : streamCalls x.1 = []
  creations_eq : creations x.1 = []

/-- The program is compiled and has been run for at most `fuel` moves, to an
end or not, from a state that the system had come to without its streams. The
calls of the streams are those of the run and no others, and no file was to be
created. -/
structure Arguments.Ran (a : Arguments) (sys : System (StateM σ)) (s : σ) (fuel : Nat)
    (log : List SystemCall) (o : Options) (p : Program)
    (outcome? : Option (Outcome CharFailure)) : Prop where
  compiles : a.Compiles log o p
  run : ∃ t u, sys.Prepares s t ∧ o.run (sys.streams.recorded id).device fuel p ([], t) =
    (outcome?, streamCalls log, u)
  creations_eq : creations log = []

theorem Arguments.Compiles.mono (h : a.Compiles log o p) (hlog : log <:+ later) :
    a.Compiles later o p := by
  obtain ⟨file, source, hasks, hopened, hcompile⟩ := h
  exact ⟨file, source, hasks, hlog.subset hopened, hcompile⟩

/-- Reports do not open a source. -/
theorem OnlyReports.compiles_iff (h : OnlyReports log later) :
    a.Compiles later o p ↔ a.Compiles log o p := by
  refine ⟨?_, fun hc => hc.mono h.suffix⟩
  rintro ⟨file, source, hasks, hopened, hcompile⟩
  exact ⟨file, source, hasks, h.opened file _ hopened, hcompile⟩

/-- What is noted of it does not make a program less ready. -/
theorem Arguments.Ready.note (h : a.Ready sys s (log, t) o p) (events : List Event) :
    a.Ready sys s (sys.recorded.note a events (log, t)).2 o p where
  compiles := h.compiles.mono (OnlyReports.note sys a events log t).suffix
  prepared := sys.recorded.note_keeps a (fun x => sys.Prepares s x.2)
    (fun message _ hx => hx.report message) events h.prepared
  streamCalls_eq := (OnlyReports.note sys a events log t).streamCalls_eq.trans h.streamCalls_eq
  creations_eq := (OnlyReports.note sys a events log t).creations_eq.trans h.creations_eq

/-- Reports are not part of the run. -/
theorem Arguments.Ran.of_onlyReports (h : a.Ran sys s fuel log o p outcome?)
    (hlog : OnlyReports log later) : a.Ran sys s fuel later o p outcome? := by
  obtain ⟨t, u, hprepared, hrun⟩ := h.run
  refine ⟨h.compiles.mono hlog.suffix, ⟨t, u, hprepared, ?_⟩,
    hlog.creations_eq.trans h.creations_eq⟩
  rw [hrun, hlog.streamCalls_eq]

/-- **The notes of a run come in front of what was noted before it.** -/
theorem run_recorded (sys : System (StateM σ)) (o : Options) (fuel : Nat) (p : Program)
    (log : List SystemCall) (s : σ) :
    o.run sys.recorded.streams.device fuel p (log, s) =
      ((o.run (sys.streams.recorded id).device fuel p ([], s)).1,
        (o.run (sys.streams.recorded id).device fuel p ([], s)).2.1.map .stream ++ log,
        (o.run (sys.streams.recorded id).device fuel p ([], s)).2.2) := by
  -- A state of the run alone is one of the command, with the notes of before behind its own.
  have hnotes : Streams.Mirrors
      (fun x : List StreamCall × σ => (x.1.map SystemCall.stream ++ log, x.2))
      (sys.streams.recorded id) sys.recorded.streams :=
    ⟨fun _ => rfl, fun _ _ => rfl, fun _ => rfl⟩
  exact hnotes.device.runFor fuel _ ([], s)

/-- What was ready has been run, once the clock was started. -/
theorem Arguments.Ready.ran (h : a.Ready sys s (log, t) o p)
    (hrun : o.run sys.recorded.streams.device fuel p (log, (sys.stopwatch t).2) =
      (outcome?, later, u)) : a.Ran sys s fuel later o p outcome? := by
  rw [run_recorded] at hrun
  rcases hr : o.run (sys.streams.recorded id).device fuel p ([], (sys.stopwatch t).2) with
    ⟨ending, calls, v⟩
  rw [hr] at hrun
  cases hrun
  refine ⟨h.compiles.mono (List.suffix_append ..), ⟨_, v, h.prepared.stopwatch, ?_⟩, ?_⟩
  · rw [hr, streamCalls_append, streamCalls_map_stream, h.streamCalls_eq, List.append_nil]
  · rw [creations_append, creations_map_stream, h.creations_eq, List.nil_append]

/-! ## The source and the tape -/

/-- What becomes of a source, whatever the bound on the run of its program. -/
inductive Arguments.SourceStage (a : Arguments) (sys : System (StateM σ)) (o : Options)
    (file : String) (s : σ) : (Nat → Ending × List SystemCall × σ) → Prop where
  | unopened {e : FileError} {t : σ} : SourceStage a sys o file s fun _ =>
      sys.recorded.failFile e ([.openSource file (.error e)], t)
  | refused {source : List Reply} {e : ParseError} {d : Diagnostic} {t : σ} :
      Program.ofReplies source = .error e → SourceStage a sys o file s fun _ =>
        sys.recorded.failWith file d ([.openSource file (.ok source)], t)
  | foreign {source : List Reply} {e : ReadError} {t : σ} :
      Program.ofReplies source = .error (.read e) → e.diagnostic? = none →
      SourceStage a sys o file s fun _ =>
        (some (.aborted (.foreignSource e)), [.openSource file (.ok source)], t)
  | compiled {source : List Reply} {p : Program} {t : σ} :
      sys.openSource file s = (.ok source, t) → Program.ofReplies source = .ok p →
      SourceStage a sys o file s fun fuel =>
        sys.recorded.printOrRun fuel a o file (o.compile p)
          (sys.recorded.note a (System.compileEvents o p)
            (sys.recorded.note a [.parsed p] ([.openSource file (.ok source)], t)).2).2

theorem runFile_stages (sys : System (StateM σ)) (a : Arguments) (o : Options) (file : String)
    (s : σ) :
    a.SourceStage sys o file s fun fuel => sys.recorded.runFile fuel a o file ([], s) := by
  simp only [System.runFile_apply, System.openSource_recorded]
  rcases hopen : sys.openSource file s with ⟨e | source, t⟩
  · exact .unopened
  simp only
  cases hp : Program.ofReplies source with
  | ok p => exact .compiled hopen hp
  | error e =>
    cases e with
    | bracket e => exact .refused hp
    | read e =>
      simp only
      cases hd : e.diagnostic? with
      | some d => exact .refused hp
      | none => exact .foreign hp hd

/-- A source that compiles is ready once it has been opened and noted. -/
theorem Arguments.Ready.noted {file : String} {source : List Reply} (h : a.Asks file o)
    (hprepared : sys.Prepares s t) (hopen : sys.openSource file t = (.ok source, u))
    (hp : Program.ofReplies source = .ok p) :
    a.Ready sys s (sys.recorded.note a (System.compileEvents o p)
      (sys.recorded.note a [.parsed p] ([.openSource file (.ok source)], u)).2).2 o
        (o.compile p) := by
  have hopened : sys.Prepares s u := by
    have hafter := hprepared.openSource file
    rwa [hopen] at hafter
  have hcompiles : a.Compiles [.openSource file (.ok source)] o (o.compile p) :=
    ⟨file, source, h, List.mem_cons_self .., by rw [Options.compileSource, hp]; rfl⟩
  have hready : a.Ready sys s ([.openSource file (.ok source)], u) o (o.compile p) :=
    ⟨hcompiles, hopened, rfl, rfl⟩
  exact (hready.note [.parsed p]).note _

/-- What becomes of a tape. -/
inductive Arguments.TapeStage (a : Arguments) (sys : System (StateM σ)) (cells : List UInt8)
    (x : List SystemCall × σ) : Ending × List SystemCall × σ → Prop where
  | nowhere : a.output = none → a.format = none → TapeStage a sys cells x (some (.code 0), x)
  | printed {f : NumberFormat} {t : σ} : a.output = none → a.format = some f →
      TapeStage a sys cells x (some (.code 0),
        .stream (.write ("\n" ++ Dump.characters (Dump.bytes (.numbers f) true cells))
          (.ok ())) :: x.1, t)
  | unprinted {f : NumberFormat} {reason : String} {t : σ} : a.output = none → a.format = some f →
      TapeStage a sys cells x (some (.aborted (.dumpFailed reason)),
        .stream (.write ("\n" ++ Dump.characters (Dump.bytes (.numbers f) true cells))
          (.error reason)) :: x.1, t)
  | missing : a.output = some none → TapeStage a sys cells x (some (.aborted .missingValue), x)
  | created {path : String} {t : σ} : a.output = some (some path) →
      TapeStage a sys cells x (some (.code 0),
        (sys.recorded.note a [.wrote (Dump.bytes a.fileFormat true cells).length path]
          (.create path (Dump.bytes a.fileFormat true cells) (.ok ()) :: x.1, t)).2)
  | uncreated {path : String} {e : FileError} {t : σ} : a.output = some (some path) →
      TapeStage a sys cells x (sys.recorded.failFile e
        (.create path (Dump.bytes a.fileFormat true cells) (.error e) :: x.1, t))

theorem writeTape_stages (sys : System (StateM σ)) (a : Arguments) (cells : List UInt8)
    (x : List SystemCall × σ) :
    a.TapeStage sys cells x (sys.recorded.writeTape a cells x) := by
  obtain ⟨log, s⟩ := x
  rw [System.writeTape_apply]
  rcases ho : a.output with _ | _ | path
  · cases hf : a.format with
    | none => exact .nowhere ho hf
    | some f =>
      -- A dump in numbers is the same in characters and in bytes.
      have htext : "\n" ++ String.ofList (Dump.text f (Dump.trimZeros cells)) =
          "\n" ++ Dump.characters (Dump.bytes (.numbers f) true cells) := by
        rw [Dump.characters_bytes, if_pos rfl]
      simp only [htext, System.recorded, Streams.recorded]
      rcases sys.streams.write ("\n" ++ Dump.characters (Dump.bytes (.numbers f) true cells)) s
        with ⟨reason | _, t⟩
      · exact .unprinted ho hf
      · exact .printed ho hf
  · exact .missing ho
  · simp only [System.create_recorded]
    rcases sys.create path (Dump.bytes a.fileFormat true cells) s with ⟨e | _, t⟩
    · exact .uncreated ho
    · exact .created ho

end Brainfuck.CommandLine
