import Brainfuck.Proofs.CommandLine.View
/-!
# All or nothing

The command leaves files and output alone until it is known that it will
succeed. A source that does not compile costs no more than a message; a run
that fails leaves what it had written and no file; and exit code 0 means that
the tape is where the arguments want it (`main_all_or_nothing`).

This is said of the notes that the command leaves, on any system. Before the
run there is the source that was opened, or the command is refused
(`runArguments_recorded`). From there on the command goes as the run goes
(`Arguments.Goes`): the calls of the streams are those of the run, and behind
one that has finished there is the tape (`Arguments.Delivers`). What is seen of
it from outside, on whatever disk, follows from the notes
(`System.View.main_follows`).
-/

namespace Brainfuck.CommandLine

/-- Since the run has finished, the tape has been written where the arguments
want it, and nothing else has. -/
inductive Arguments.Delivers (a : Arguments) (cells : List UInt8)
    (earlier log : List SystemCall) : Prop where
  | nowhere :
      a.output = none → a.format = none → streamCalls log = streamCalls earlier →
      creations log = [] → Delivers a cells earlier log
  | toOutput {f : NumberFormat} :
      a.output = none → a.format = some f →
      streamCalls log =
        .write ("\n" ++ Dump.characters (Dump.bytes (.numbers f) true cells)) (.ok ()) ::
          streamCalls earlier →
      creations log = [] → Delivers a cells earlier log
  | toFile {path : String} :
      a.output = some (some path) → streamCalls log = streamCalls earlier →
      creations log = [.create path (Dump.bytes a.fileFormat true cells) (.ok ())] →
      Delivers a cells earlier log

/-- How the command goes with a program that it runs. -/
inductive Arguments.Goes {σ : Type} (a : Arguments) (sys : System (StateM σ)) (s : σ) (fuel : Nat)
    (o : Options) (p : Program) (log : List SystemCall) : Ending → Prop where
  /-- The run goes on. -/
  | running : a.Ran sys s fuel log o p none → Goes a sys s fuel o p log none
  | failed {f : Failure CharFailure} {m : Machine} :
      a.Ran sys s fuel log o p (some (.failed f m)) → Goes a sys s fuel o p log (some (.code 1))
  | finished {m : Machine} {earlier : List SystemCall} {exit : Exit} :
      a.Ran sys s fuel earlier o p (some (.finished m)) → earlier <:+ log →
      (exit = .code 0 → a.Delivers m.tape.cells.toList earlier log) →
      Goes a sys s fuel o p log (some exit)

/-- The command ends with an exit other than code 0. No source that compiles
has been opened, and nothing has been done with the streams or with a file. -/
structure Arguments.Refused (a : Arguments) (exit : Exit) (log : List SystemCall) : Prop where
  not_compiles : ∀ o p, ¬ a.Compiles log o p
  exit_ne : exit ≠ .code 0
  streamCalls_eq : streamCalls log = []
  creations_eq : creations log = []

variable {σ : Type} (sys : System (StateM σ)) {s t : σ} {fuel : Nat} {a : Arguments} {o : Options}
  {p : Program} {log earlier later : List SystemCall} {x : List SystemCall × σ}

/-! ## The tape -/

theorem Arguments.Delivers.of_onlyReports {cells : List UInt8}
    (h : a.Delivers cells earlier log) (hlog : OnlyReports log later) :
    a.Delivers cells earlier later := by
  cases h with
  | nowhere ho hf hstream hcreate =>
    exact .nowhere ho hf (hlog.streamCalls_eq.trans hstream) (hlog.creations_eq.trans hcreate)
  | toOutput ho hf hstream hcreate =>
    exact .toOutput ho hf (hlog.streamCalls_eq.trans hstream) (hlog.creations_eq.trans hcreate)
  | toFile ho hstream hcreate =>
    exact .toFile ho (hlog.streamCalls_eq.trans hstream) (hlog.creations_eq.trans hcreate)

/-- **Code 0 means that the tape was written.** -/
theorem delivers_of_stage {cells : List UInt8} {z : Ending × List SystemCall × σ}
    (hcreations : creations x.1 = []) (hstage : a.TapeStage sys cells x z) :
    ∃ exit y, z = (some exit, y) ∧ x.1 <:+ y.1 ∧
      (exit = .code 0 → a.Delivers cells x.1 y.1) := by
  cases hstage with
  | nowhere ho hf => exact ⟨_, _, rfl, List.suffix_rfl, fun _ => .nowhere ho hf rfl hcreations⟩
  | printed ho hf =>
    exact ⟨_, _, rfl, List.suffix_cons .., fun _ => .toOutput ho hf rfl hcreations⟩
  | unprinted => exact ⟨_, _, rfl, List.suffix_cons .., nofun⟩
  | missing => exact ⟨_, _, rfl, List.suffix_rfl, nofun⟩
  | @created path t ho =>
    have hdelivers : a.Delivers cells x.1
        (.create path (Dump.bytes a.fileFormat true cells) (.ok ()) :: x.1) :=
      .toFile ho rfl (congrArg (_ :: ·) hcreations)
    have hreports := OnlyReports.note sys a
      [.wrote (Dump.bytes a.fileFormat true cells).length path]
      (.create path (Dump.bytes a.fileFormat true cells) (.ok ()) :: x.1) t
    exact ⟨_, _, rfl, (List.suffix_cons ..).trans hreports.suffix,
      fun _ => hdelivers.of_onlyReports hreports⟩
  | @uncreated path e t ho =>
    obtain ⟨exit, y, hexit, hne, hreports⟩ := failFile_recorded sys e
      (.create path (Dump.bytes a.fileFormat true cells) (.error e) :: x.1, t)
    exact ⟨exit, y, hexit, (List.suffix_cons ..).trans hreports.suffix, fun h => absurd h hne⟩

/-! ## The run -/

/-- **The command goes as the run of its program goes.** -/
theorem runProgram_recorded (hready : a.Ready sys s x o p) (file : String) :
    ∃ ending y, sys.recorded.runProgram fuel a o file p x = (ending, y) ∧
      a.Goes sys s fuel o p y.1 ending := by
  rw [System.runProgram_apply]
  obtain ⟨log, t⟩ := x
  simp only [System.stopwatch_recorded]
  rcases hr : o.run sys.recorded.streams.device fuel p (log, (sys.stopwatch t).2) with
    ⟨_ | m | ⟨f, m⟩, later, u⟩
  · exact ⟨_, _, rfl, .running (hready.ran hr)⟩
  · have hran := (hready.ran hr).of_onlyReports
      (.note sys a [.executed m.steps ((sys.stopwatch t).1 u).1] later ((sys.stopwatch t).1 u).2)
    obtain ⟨exit, y, htape, hsuffix, hdelivers⟩ :=
      delivers_of_stage sys hran.creations_eq (writeTape_stages sys a m.tape.cells.toList _)
    exact ⟨some exit, y, htape, .finished hran hsuffix hdelivers⟩
  · have hran := hready.ran hr
    -- A run fails by an answer of the device and by nothing else.
    obtain ⟨calls, -, hends⟩ := Ends.answers ⟨fuel, hr⟩
    cases hends
    next e call calls _ _ _ =>
    simp only
    cases e.diagnostic? with
    | some d =>
      obtain ⟨y, hfail, hreports⟩ := failWith_recorded sys file d (later, u)
      exact ⟨_, y, hfail, .failed (hran.of_onlyReports hreports)⟩
    | none => exact ⟨_, _, rfl, .failed (hran.of_onlyReports (.report _ later))⟩

theorem Arguments.Goes.compiles {ending : Ending} (h : a.Goes sys s fuel o p log ending) :
    a.Compiles log o p := by
  cases h with
  | running hran | failed hran => exact hran.compiles
  | finished hran hsuffix _ => exact hran.compiles.mono hsuffix

theorem Arguments.Goes.delivers (h : a.Goes sys s fuel o p log (some (.code 0))) :
    ∃ m earlier, a.Ran sys s fuel earlier o p (some (.finished m)) ∧
      a.Delivers m.tape.cells.toList earlier log := by
  cases h with
  | finished hran _ hdelivers => exact ⟨_, _, hran, hdelivers rfl⟩

/-- What is ready is printed or run. -/
theorem printOrRun_recorded (hready : a.Ready sys s x o p) (file : String) :
    ∃ ending y, sys.recorded.printOrRun fuel a o file p x = (ending, y) ∧
      a.Compiles y.1 o p ∧ (a.emit = false → a.Goes sys s fuel o p y.1 ending) := by
  unfold System.printOrRun
  cases a.emit with
  | true =>
    obtain ⟨log, t⟩ := x
    simp only [if_true, System.recorded, Streams.recorded]
    rcases sys.streams.write (p.text ++ "\n") t with ⟨reason | _, u⟩
    · exact ⟨_, _, rfl, hready.compiles.mono ((List.suffix_cons ..).trans (List.suffix_cons ..)),
        fun h => absurd h.symm Bool.false_ne_true⟩
    · exact ⟨_, _, rfl, hready.compiles.mono (List.suffix_cons ..),
        fun h => absurd h.symm Bool.false_ne_true⟩
  | false =>
    obtain ⟨ending, y, hrun, hgoes⟩ := runProgram_recorded sys hready file
    exact ⟨ending, y, hrun, hgoes.compiles, fun _ => hgoes⟩

/-! ## Before the run -/

theorem Arguments.Refused.of_onlyReports {exit : Exit} (h : a.Refused exit log)
    (hlog : OnlyReports log later) : a.Refused exit later where
  not_compiles o p hc := h.not_compiles o p (hlog.compiles_iff.1 hc)
  exit_ne := h.exit_ne
  streamCalls_eq := hlog.streamCalls_eq.trans h.streamCalls_eq
  creations_eq := hlog.creations_eq.trans h.creations_eq

/-- The notes of a source that was opened, and is no program. -/
theorem refused_of_opened {exit : Exit} (hexit : exit ≠ .code 0) {path : String}
    {answer : Except FileError (List Reply)}
    (h : ∀ source, answer = .ok source → ∃ e, Program.ofReplies source = .error e) :
    a.Refused exit [.openSource path answer] := by
  refine ⟨?_, hexit, rfl, rfl⟩
  rintro o p ⟨file, source, -, hopened, hcompile⟩
  cases List.mem_singleton.1 hopened
  obtain ⟨e, he⟩ := h source rfl
  rw [Options.compileSource, he] at hcompile
  cases hcompile

/-- **Before the run there is the source that was opened**, or the command is
refused, and both without regard to the bound on the run. -/
theorem refused_or_ready {file : String} {run : Nat → Ending × List SystemCall × σ}
    (hasks : a.Asks file o) (hprepared : sys.Prepares s t)
    (hstage : a.SourceStage sys o file t run) :
    (∃ exit y, a.Refused exit y.1 ∧ ∀ fuel, run fuel = (some exit, y)) ∨
    ∃ p y, a.Ready sys s y o p ∧ ∀ fuel, run fuel = sys.recorded.printOrRun fuel a o file p y := by
  cases hstage with
  | @unopened e t =>
    obtain ⟨exit, y, hexit, hne, hreports⟩ :=
      failFile_recorded sys e ([.openSource file (.error e)], t)
    have hrefused : a.Refused exit [.openSource file (.error e)] := refused_of_opened hne nofun
    exact Or.inl ⟨exit, y, hrefused.of_onlyReports hreports, fun _ => hexit⟩
  | @refused source e d t hp =>
    obtain ⟨y, hend, hreports⟩ :=
      failWith_recorded sys file d ([.openSource file (.ok source)], t)
    have hrefused : a.Refused (.code 1) [.openSource file (.ok source)] := by
      refine refused_of_opened (by decide) ?_
      rintro _ ⟨⟩
      exact ⟨e, hp⟩
    exact Or.inl ⟨_, y, hrefused.of_onlyReports hreports, fun _ => hend⟩
  | @foreign source e t hp _ =>
    have hrefused : a.Refused (.aborted (.foreignSource e)) [.openSource file (.ok source)] := by
      refine refused_of_opened ?_ ?_
      · rintro ⟨⟩
      · rintro _ ⟨⟩
        exact ⟨_, hp⟩
    exact Or.inl ⟨_, _, hrefused, fun _ => rfl⟩
  | compiled hopen hp => exact Or.inr ⟨_, _, .noted hasks hprepared hopen hp, fun _ => rfl⟩

theorem runArguments_recorded (a : Arguments) (s : σ) :
    (∃ exit y, a.Refused exit y.1 ∧
      ∀ fuel, sys.recorded.runArguments fuel a ([], s) = (some exit, y)) ∨
    ∃ o p file y, a.Ready sys s y o p ∧ ∀ fuel, sys.recorded.runArguments fuel a ([], s) =
      sys.recorded.printOrRun fuel a o file p y := by
  rcases sys.recorded.runArguments_cases a ([], s) with ⟨file, o, hasks, hdir⟩ | ⟨y, hy, hrun⟩
  · have hfile (fuel : Nat) : sys.recorded.runArguments fuel a ([], s) =
        sys.recorded.runFile fuel a o file ([], (sys.isDirectory file s).2) :=
      sys.recorded.runArguments_of_asks fuel a _ hasks hdir
    rcases refused_or_ready sys hasks (.isDirectory file .start)
      (runFile_stages sys a o file (sys.isDirectory file s).2) with
      ⟨exit, y, hrefused, hend⟩ | ⟨p, y, hready, hrun⟩
    · exact Or.inl ⟨exit, y, hrefused, fun fuel => (hfile fuel).trans (hend fuel)⟩
    · exact Or.inr ⟨o, p, file, y, hready, fun fuel => (hfile fuel).trans (hrun fuel)⟩
  · have hlog : y.1 = [] := by
      rcases hy with rfl | ⟨file, rfl⟩ <;> rfl
    have hrefused (exit : Exit) (hexit : exit ≠ .code 0) : a.Refused exit y.1 := by
      rw [hlog]
      refine ⟨?_, hexit, rfl, rfl⟩
      rintro o p ⟨_, _, _, ⟨⟩, _⟩
    rcases hrun with ⟨message, hrun⟩ | hrun
    · have hreported : a.Refused (.code 1) (.report ("Error: " ++ message) :: y.1) :=
        (hrefused _ (by decide)).of_onlyReports (.report _ y.1)
      exact Or.inl ⟨_, _, hreported, hrun⟩
    · exact Or.inl ⟨_, y, hrefused (.aborted .missingValue) nofun, hrun⟩

/-! ## The command -/

/-- **All or nothing.** Take arguments that are read, any system, and any bound
on the run of the program. The command goes as it does without notes, and its
notes tell how.

If no source that compiles was opened, the command ends with an exit other than
code 0, whatever the bound on its run, and has done nothing with the streams or
with a file. If one was, and it was not to be printed, its program runs, from
where looking at files, messages and the clock have brought the system. As long
as it does, and where it fails, which costs exit code 1, the calls of the
streams are those of the run and no file has been created. Exit code 0 means
that the run has finished, and that the tape it left is where the arguments
want it: in the file, the only one that was created, or on the output behind a
line feed. What is seen of the system in the end is what was seen at the start
and what was done according to the notes. -/
theorem main_all_or_nothing (fuel : Nat) {argv : List String} (ha : Arguments.ofList argv = .ok a)
    (s : σ) :
    ∃ ending log t, sys.main fuel argv s = (ending, t) ∧
      sys.recorded.main fuel argv ([], s) = (ending, log, t) ∧
      ((∀ o p, ¬ a.Compiles log o p) → ∃ exit, a.Refused exit log ∧
        ∀ bound, sys.recorded.main bound argv ([], s) = (some exit, log, t)) ∧
      ((∃ o p, a.Compiles log o p) → a.emit = false → ∃ o p, a.Goes sys s fuel o p log ending) ∧
      (a.emit = false → ending = some (.code 0) → ∃ o p m earlier,
        a.Ran sys s fuel earlier o p (some (.finished m)) ∧
          a.Delivers m.tape.cells.toList earlier log) ∧
      ∀ {κ : Type} (view : sys.View κ), view.Follows s log t := by
  have hmain (bound : Nat) : sys.recorded.main bound argv ([], s) =
      sys.recorded.runArguments bound a ([], s) := by
    rw [System.main, ha]
  have hplain := sys.main_recorded fuel argv ([], s)
  have hfollows {κ : Type} (view : sys.View κ) := view.main_follows fuel argv s
  rcases runArguments_recorded sys a s with
    ⟨exit, ⟨log, t⟩, hrefused, hend⟩ | ⟨o, p, file, y, hready, hrun⟩
  · -- The bound on the run plays no part where there is none.
    have hall (bound : Nat) : sys.recorded.main bound argv ([], s) = (some exit, log, t) :=
      (hmain bound).trans (hend bound)
    rw [hall fuel] at hplain hfollows
    refine ⟨some exit, log, t, hplain, hall fuel, fun _ => ⟨exit, hrefused, hall⟩, ?_, ?_,
      hfollows⟩
    · rintro ⟨o, p, hcompiles⟩
      exact absurd hcompiles (hrefused.not_compiles o p)
    · rintro - ⟨⟩
      exact absurd rfl hrefused.exit_ne
  · obtain ⟨ending, ⟨log, t⟩, hprinted, hcompiles, hgoes⟩ := printOrRun_recorded sys hready file
    have hended : sys.recorded.main fuel argv ([], s) = (ending, log, t) :=
      (hmain fuel).trans ((hrun fuel).trans hprinted)
    rw [hended] at hplain hfollows
    refine ⟨ending, log, t, hplain, hended, fun hnone => absurd hcompiles (hnone o p),
      fun _ hemit => ⟨o, p, hgoes hemit⟩, ?_, hfollows⟩
    rintro hemit rfl
    exact ⟨o, p, (hgoes hemit).delivers⟩

/-- The tape is to be written over the source. -/
def ontoSource : List String := ["-s1", "--hex", "--output", "../tmp/f", "/tmp/f"]

/-- What `ontoSource` is read as. -/
def ontoSource.arguments : Arguments where
  file := some "/tmp/f"
  size := some 1
  format := some .hex
  output := some (some "../tmp/f")

/-- A source next to the working directory, and streams of which some writes
fail. -/
def ontoSource.world (source : List UInt8) (failing : List Nat) : World :=
  { sourceWorld source failing with
    disk := { files := [(["tmp", "f"], source)], workingDirectory := ["work"] } }

/-- What is not closed leaves the source alone, and so does a program whose
output fails, after the first of two characters. A program that finishes is
replaced by its tape. -/
theorem main_all_or_nothing_ontoSource :
    (∃ t, (World.system "0").main 20 ontoSource (ontoSource.world [91] []) =
        (some (.code 1), t) ∧
      (World.view "0").seen t = (World.view "0").seen (ontoSource.world [91] [])) ∧
    (∃ o p log t, (World.system "0").main 20 ontoSource (ontoSource.world [46, 43, 46] [1]) =
        (some (.code 1), t) ∧
      ontoSource.arguments.Goes (World.system "0") (ontoSource.world [46, 43, 46] [1]) 20 o p log
        (some (.code 1)) ∧
      (World.view "0").seen t = ⟨"\x00", (ontoSource.world [46, 43, 46] [1]).disk.listing⟩) ∧
    ∃ o p m earlier log, (World.system "0").main 20 ontoSource (ontoSource.world [43, 46] []) =
        (some (.code 0), { ontoSource.world [48, 49, 10] [] with
          script := { (sourceWorld [] []).script with
                      written := "\x01", writes := 1, flushes := 1 } }) ∧
      ontoSource.arguments.Ran (World.system "0") (ontoSource.world [43, 46] []) 20 earlier o p
        (some (.finished m)) ∧
      ontoSource.arguments.Delivers m.tape.cells.toList earlier log := by
  have hargs : Arguments.ofList ontoSource = .ok ontoSource.arguments := rfl
  refine ⟨?_, ?_, ?_⟩
  · obtain ⟨message, u, hrun⟩ : ∃ message u, (World.system "0").recorded.main 20 ontoSource
        ([], ontoSource.world [91] []) =
          (some (.code 1), [.report message, .content "/tmp/f" (some [91]),
            .openSource "/tmp/f" (.ok [.bytes [91]])], u) := ⟨_, _, rfl⟩
    obtain ⟨ending, log, t, hplain, hrecorded, hrefused, -, -, hfollows⟩ :=
      main_all_or_nothing (World.system "0") 20 hargs (ontoSource.world [91] [])
    cases hrun.symm.trans hrecorded
    have hnot (o : Options) (p : Program) : ¬ ontoSource.arguments.Compiles
        [.report message, .content "/tmp/f" (some [91]),
          .openSource "/tmp/f" (.ok [.bytes [91]])] o p := by
      rintro ⟨file, source, -, hopened, hcompile⟩
      simp only [List.mem_cons, reduceCtorEq, List.not_mem_nil, false_or, or_false] at hopened
      cases hopened
      cases hcompile
    obtain ⟨exit, hrefused, -⟩ := hrefused hnot
    exact ⟨u, hplain,
      (hfollows (World.view "0")).seen_eq hrefused.streamCalls_eq hrefused.creations_eq⟩
  · obtain ⟨message, u, hrun⟩ : ∃ message u, (World.system "0").recorded.main 20 ontoSource
        ([], ontoSource.world [46, 43, 46] [1]) =
          (some (.code 1), [.report message, .content "/tmp/f" (some [46, 43, 46]),
            .stream (.write "\x01" (.error "write 1 failed")), .stream (.flush (.ok ())),
            .stream (.write "\x00" (.ok ())),
            .openSource "/tmp/f" (.ok [.bytes [46], .bytes [43], .bytes [46]])], u) :=
      ⟨_, _, rfl⟩
    obtain ⟨ending, log, t, hplain, hrecorded, -, hgoes, -, hfollows⟩ :=
      main_all_or_nothing (World.system "0") 20 hargs (ontoSource.world [46, 43, 46] [1])
    cases hrun.symm.trans hrecorded
    obtain ⟨o, p, hgoes⟩ := hgoes ⟨_, _, "/tmp/f", [.bytes [46], .bytes [43], .bytes [46]],
      ⟨rfl, 1, 0, rfl, rfl, rfl⟩, by simp, rfl⟩ rfl
    have hfollows := hfollows (World.view "0")
    exact ⟨o, p, _, u, hplain, hgoes, Seen.ext hfollows.output
      (hfollows.unchanged fun _ _ => List.not_mem_nil)⟩
  · have hrun : @Eq (Ending × World)
        ((World.system "0").main 20 ontoSource (ontoSource.world [43, 46] []))
        (some (.code 0), { ontoSource.world [48, 49, 10] [] with
          script := { (sourceWorld [] []).script with
                      written := "\x01", writes := 1, flushes := 1 } }) := by decide +kernel
    obtain ⟨ending, log, t, hplain, hrecorded, -, -, hdone, -⟩ :=
      main_all_or_nothing (World.system "0") 20 hargs (ontoSource.world [43, 46] [])
    cases hplain.symm.trans hrun
    obtain ⟨o, p, m, earlier, hran, hdelivers⟩ := hdone rfl rfl
    exact ⟨o, p, m, earlier, log, hrun, hran, hdelivers⟩

end Brainfuck.CommandLine
