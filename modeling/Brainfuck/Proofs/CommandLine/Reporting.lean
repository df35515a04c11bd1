import Brainfuck.Proofs.CommandLine.Notes
/-!
# Failures that are reported

A note of every call of the system (`System.recorded`) tells which calls have
failed. After one that has, the command does no more than read the source again
for a message, if it needs it, and print the message. So the notes of a command
are `Accounted` for at any time: as long as it runs no call has failed, and
where it is over either none has, or one has and is behind a message with exit
code 1. There is one gap: where the dump for the output stream is not taken,
there is no message and no exit code.
-/

namespace Brainfuck.CommandLine

/-- An exit that leaves a failure of the operating system, of the source or
of the tape to whoever has called the command. -/
def Exit.LeavesFailure : Exit → Prop
  | .aborted (.dumpFailed _) => True
  | .aborted (.foreignSource e) => e.diagnostic?.isSome
  | .aborted (.tape _) => True
  | _ => False

/-- No call has failed. -/
def Clean (log : List SystemCall) : Prop := ∀ call ∈ log, ¬ call.Failed

/-- A call has failed, the first that has, and since then the source has been
read again at most. -/
inductive Broken : List SystemCall → Prop where
  | failed {call : SystemCall} {log : List SystemCall} :
      call.Failed → Clean log → Broken (call :: log)
  | content {path : String} {answer : Option (List UInt8)} {log : List SystemCall} :
      Broken log → Broken (.content path answer :: log)

/-- How a command goes, by the notes of its calls. -/
inductive Accounted {σ : Type} (a : Arguments) (sys : System (StateM σ)) (s : σ) (fuel : Nat) :
    Ending → List SystemCall → Prop where
  | running {log : List SystemCall} : Clean log → Accounted a sys s fuel none log
  | clean {exit : Exit} {log : List SystemCall} :
      Clean log → ¬ exit.LeavesFailure → Accounted a sys s fuel (some exit) log
  | reported {message : String} {log : List SystemCall} :
      Broken log → Accounted a sys s fuel (some (.code 1)) (.report message :: log)
  /-- The program has run to its end, and its tape could not be written to the
  output stream. -/
  | dump {f : NumberFormat} {reason : String} {earlier : List SystemCall} {o : Options}
      {p : Program} {m : Machine} :
      a.output = none → a.format = some f → a.emit = false → Clean earlier →
      a.Ran sys s fuel earlier o p (some (.finished m)) →
      Accounted a sys s fuel (some (.aborted (.dumpFailed reason)))
        (.stream (.write
          ("\n" ++ Dump.characters (Dump.bytes (.numbers f) true m.tape.cells.toList))
          (.error reason)) :: earlier)

/-- What comes of a stage is accounted for. -/
def Accounts {σ : Type} (a : Arguments) (sys : System (StateM σ)) (s : σ) (fuel : Nat)
    (x : Ending × List SystemCall × σ) : Prop :=
  Accounted a sys s fuel x.1 x.2.1

variable {σ : Type} (sys : System (StateM σ)) {s : σ} {fuel : Nat} {a : Arguments}
  {log : List SystemCall} {x : List SystemCall × σ} {o : Options} {p : Program}

theorem clean_nil : Clean [] := by
  rintro call ⟨⟩

theorem Clean.cons {call : SystemCall} (h : Clean log) (hcall : ¬ call.Failed) :
    Clean (call :: log) := by
  intro c hc
  rcases List.mem_cons.1 hc with rfl | hc
  · exact hcall
  · exact h c hc

/-- The first call that may have failed. -/
theorem clean_or_broken (h : Clean log) (call : SystemCall) :
    Clean (call :: log) ∨ Broken (call :: log) := by
  by_cases hcall : call.Failed
  · exact Or.inr (.failed hcall h)
  · exact Or.inl (h.cons hcall)

theorem streams_keep_clean :
    sys.recorded.streams.Keeps (fun x => Clean x.1) fun x => Broken x.1 := by
  refine Streams.keeps_recorded ?_ ?_
  · rintro call log hcall hlog
    refine Clean.cons hlog ?_
    rintro ⟨reason, hreason⟩
    cases hcall.symm.trans hreason
  · rintro call log reason hcall hlog
    exact .failed ⟨reason, hcall⟩ hlog

/-! ## Ends -/

/-- A message with code 1 accounts for a failure, and does no harm without
one. -/
theorem accounts_stop (h : Clean x.1 ∨ Broken x.1) (message : String) :
    Accounts a sys s fuel (sys.recorded.stop 1 message x) := by
  rcases h with h | h
  · exact .clean (h.cons not_false) not_false
  · exact .reported h

/-- So does one for which the source is read again, whether it can be read or
not. -/
theorem accounts_failWith (h : Clean x.1 ∨ Broken x.1) (file : String) (d : Diagnostic) :
    Accounts a sys s fuel (sys.recorded.failWith file d x) := by
  have hcontent (answer : Option (List UInt8)) :
      Clean (.content file answer :: x.1) ∨ Broken (.content file answer :: x.1) := by
    rcases h with h | h
    · exact clean_or_broken h _
    · exact Or.inr (.content h)
  exact accounts_stop sys (hcontent _) _

/-- What ends without a message. -/
theorem accounts_of_clean (h : Clean x.1) {exit : Exit} (hexit : ¬ exit.LeavesFailure) :
    Accounts a sys s fuel (some exit, x) :=
  .clean h hexit

/-- A file that cannot be opened is reported. -/
theorem accounts_failFile {call : SystemCall} {e : FileError} {t : σ} (h : Clean log)
    (hcall : call.Failed ↔ e.fault ≠ .zeroCharacter) :
    Accounts a sys s fuel (sys.recorded.failFile e (call :: log, t)) := by
  rw [System.failFile_apply]
  by_cases hzero : e.fault = .zeroCharacter
  · rw [if_pos hzero]
    exact accounts_of_clean sys (h.cons fun hf => hcall.1 hf hzero) not_false
  · rw [if_neg hzero]
    have hbroken : Broken (call :: log) := .failed (hcall.2 hzero) h
    exact accounts_stop sys (Or.inr hbroken) _

theorem clean_note {t : σ} (h : Clean log) (events : List Event) :
    Clean (sys.recorded.note a events (log, t)).2.1 :=
  sys.recorded.note_keeps a (fun x => Clean x.1) (fun _ _ hx => hx.cons not_false) events h

/-! ## Stages -/

/-- What the tape comes to that a run has left. -/
theorem accounts_tape {m : Machine} {z : Ending × List SystemCall × σ} (hemit : a.emit = false)
    (h : Clean x.1) (hran : a.Ran sys s fuel x.1 o p (some (.finished m)))
    (hstage : a.TapeStage sys m.tape.cells.toList x z) : Accounts a sys s fuel z := by
  cases hstage with
  | nowhere | missing => exact accounts_of_clean sys h not_false
  | printed =>
    refine accounts_of_clean sys (h.cons ?_) not_false
    rintro ⟨_, ⟨⟩⟩
  | unprinted ho hf => exact .dump ho hf hemit h hran
  | @created path t _ =>
    have hlog : Clean (.create path (Dump.bytes a.fileFormat true m.tape.cells.toList)
        (.ok ()) :: x.1) := h.cons not_false
    exact accounts_of_clean sys (clean_note sys hlog _) not_false
  | uncreated => exact accounts_failFile sys h Iff.rfl

/-- **As long as a program runs no call has failed**, and where it fails the
last call has. -/
theorem accounts_runProgram (hemit : a.emit = false) (h : Clean x.1) (hready : a.Ready sys s x o p)
    (file : String) : Accounts a sys s fuel (sys.recorded.runProgram fuel a o file p x) := by
  rw [System.runProgram_apply]
  obtain ⟨log, t⟩ := x
  simp only [System.stopwatch_recorded]
  rcases hr : o.run sys.recorded.streams.device fuel p (log, (sys.stopwatch t).2) with
    ⟨_ | m | ⟨f, m⟩, later, u⟩
  · exact .running ((streams_keep_clean sys).device.of_none hr h)
  · have hlater : Clean later := (streams_keep_clean sys).device.of_finished ⟨fuel, hr⟩ h
    exact accounts_tape sys hemit (clean_note sys hlater _)
      ((hready.ran hr).of_onlyReports (.note sys a _ _ _)) (writeTape_stages sys a _ _)
  · obtain ⟨e, rfl, hlater⟩ := (streams_keep_clean sys).device.of_failed ⟨fuel, hr⟩ h
    simp only
    cases e.diagnostic? with
    | some d => exact accounts_failWith sys hlater file d
    | none => exact accounts_stop sys hlater _

theorem accounts_printOrRun (h : Clean x.1) (hready : a.Ready sys s x o p) (file : String) :
    Accounts a sys s fuel (sys.recorded.printOrRun fuel a o file p x) := by
  unfold System.printOrRun
  cases hemit : a.emit with
  | true =>
    have hw : Answered (fun x => Clean x.1) (fun _ x => Broken x.1)
        (sys.recorded.streams.write (p.text ++ "\n") x) := (streams_keep_clean sys).write _ x h
    rw [if_pos rfl]
    rcases hv : sys.recorded.streams.write (p.text ++ "\n") x with ⟨reason | _, v⟩ <;>
      rw [hv] at hw
    · exact accounts_stop sys (Or.inr hw) _
    · exact accounts_of_clean sys hw not_false
  | false =>
    rw [if_neg Bool.false_ne_true]
    exact accounts_runProgram sys hemit h hready file

/-- What the source comes to that the arguments name. -/
theorem accounts_source {file : String} {run : Nat → Ending × List SystemCall × σ}
    {t : σ} (hasks : a.Asks file o) (hprepared : sys.Prepares s t)
    (hstage : a.SourceStage sys o file t run) :
    Accounts a sys s fuel (run fuel) := by
  cases hstage with
  | unopened => exact accounts_failFile sys clean_nil Iff.rfl
  | refused => exact accounts_failWith sys (clean_or_broken clean_nil _) file _
  | foreign hp hd =>
    -- A read that has failed has a diagnostic.
    refine accounts_of_clean sys (clean_nil.cons ?_) (by simp [Exit.LeavesFailure, hd])
    rintro ⟨reason, hreason⟩
    cases hp.symm.trans hreason
    cases hd
  | @compiled source q u hopen hp =>
    have hopened : Clean [.openSource file (.ok source)] := by
      refine clean_nil.cons ?_
      rintro ⟨reason, hreason⟩
      cases hp.symm.trans hreason
    exact accounts_printOrRun sys (clean_note sys (clean_note sys hopened _) _)
      (.noted hasks hprepared hopen hp) file

theorem accounts_runArguments (s : σ) :
    Accounts a sys s fuel (sys.recorded.runArguments fuel a ([], s)) := by
  rcases sys.recorded.runArguments_cases a ([], s) with
    ⟨file, o, hasks, hdir⟩ | ⟨t, ht, hrun⟩
  · rw [System.runArguments_of_asks _ fuel a _ hasks hdir]
    exact accounts_source sys hasks (.isDirectory file .start) (runFile_stages sys a o file _)
  · have hclean : Clean t.1 := by
      rcases ht with rfl | ⟨file, rfl⟩ <;> exact clean_nil
    rcases hrun with ⟨message, hrun⟩ | hrun <;> rw [hrun]
    · exact accounts_stop sys (Or.inl hclean) _
    · exact accounts_of_clean sys hclean not_false

/-! ## The command -/

/-- **Every failure is accounted for.** Take arguments that are read, any
system, and any bound on the run of the program. The command goes as it does
without notes, and the notes of its calls are of one of four kinds. Where the
bound is too small and the program is still running, no call has failed so far.
Where the command is over, either no call has failed, and the exit leaves no
failure to anyone else. Or a call has failed, the first that has; since then
the source has been read again at most, for the message that follows, and the
exit code is 1. Or the program has run to its end and the last call was to write
the dump of the tape that it left to the output stream: that call has failed,
the only one, and then there is no message. So the exit code is 0 only if every
write has succeeded. -/
theorem main_accounted (fuel : Nat) {argv : List String} (ha : Arguments.ofList argv = .ok a)
    (s : σ) :
    ∃ ending log t, sys.main fuel argv s = (ending, t) ∧
      sys.recorded.main fuel argv ([], s) = (ending, log, t) ∧
      Accounted a sys s fuel ending log := by
  have hplain := sys.main_recorded fuel argv ([], s)
  have haccounts : Accounts a sys s fuel (sys.recorded.main fuel argv ([], s)) := by
    rw [System.main, ha]
    exact accounts_runArguments sys s
  exact ⟨_, _, _, hplain, rfl, haccounts⟩

/-- The output stream takes nothing of a program that prints one character. -/
theorem main_accounted_failingOutput :
    ∃ log, (World.system "0").recorded.main 20 ["-s1", "f"] ([], sourceWorld [46] [0]) =
        (some (.code 1), log,
          { sourceWorld [46] [0] with
            script := { (sourceWorld [46] [0]).script with writes := 1 }
            messages := "RuntimeIOError: Failed to write a character: write 0 failed\n" }) ∧
      Accounted { file := some "f", size := some 1 } (World.system "0") (sourceWorld [46] [0]) 20
        (some (.code 1)) log := by
  have hmain : @Eq (Ending × World)
      ((World.system "0").main 20 ["-s1", "f"] (sourceWorld [46] [0]))
      (some (.code 1),
        { sourceWorld [46] [0] with
          script := { (sourceWorld [46] [0]).script with writes := 1 }
          messages := "RuntimeIOError: Failed to write a character: write 0 failed\n" }) := by
    decide +kernel
  have hargs : Arguments.ofList ["-s1", "f"] = .ok { file := some "f", size := some 1 } := rfl
  obtain ⟨ending, log, t, hplain, hrecorded, haccounted⟩ :=
    main_accounted (World.system "0") 20 hargs (sourceWorld [46] [0])
  cases hplain.symm.trans hmain
  exact ⟨log, hrecorded, haccounted⟩

/-- The output stream takes nothing of a dump: the command ends without a
message and without an exit code. -/
theorem dump_not_reported :
    @Eq (Ending × World)
      ((World.system "0").main 20 ["-s1", "--hex", "f"] (sourceWorld [43] [0]))
      (some (.aborted (.dumpFailed "write 0 failed")),
        { sourceWorld [43] [0] with
          script := { (sourceWorld [43] [0]).script with writes := 1 }, messages := "" }) := by
  decide +kernel

end Brainfuck.CommandLine
