import Brainfuck.CommandLine.Run
import Brainfuck.Device.Buffer
import Brainfuck.Proofs.CommandLine.Arguments
import Brainfuck.Proofs.Options
/-!
# What the user sees of the optimizer

Nothing, unless the program is printed or the log is asked for. What
follows a run depends on the program only through how the run ended, and a
compiled program ends as the program does (`Options.refines_compile`); the
rest of the command does not look at the optimizer at all. So arguments
with a count imitate those without one (`System.runArguments_imitates`), on
any system.
-/

namespace Brainfuck.CommandLine

variable {σ : Type} {sys : System (StateM σ)} {a b : Arguments} {n : Int}

/-- A run is asked for that is not logged. -/
structure Arguments.IsQuietRun (a : Arguments) : Prop where
  emit : a.emit = false
  verbose : a.verbose = false

theorem Arguments.OptimizesLike.isQuietRun {m : Option Int} (h : a.OptimizesLike m b)
    (ha : a.IsQuietRun) : b.IsQuietRun := by
  rcases h with rfl | rfl
  · exact ha
  · exact ⟨ha.emit, ha.verbose⟩

namespace System

/-- A quiet command notes nothing. -/
theorem note_quiet (h : a.IsQuietRun) (events : List Event) : sys.note a events = pure () := by
  rw [note, h.verbose]
  rfl

/-- The tape is written without regard to the count. -/
theorem writeTape_optimize (h : a.OptimizesLike (some n) b) (cells : List UInt8) :
    sys.writeTape b cells = sys.writeTape a cells := by
  rcases h with rfl | rfl <;> rfl

/-- **What follows a run depends on how it ended**, and not on its program
or on the number of its instructions. -/
theorem runProgram_imitates (h : a.OptimizesLike (some n) b) (ha : a.IsQuietRun) (o : Options)
    (optimization : Option Budget) (file : String) {p q : Program}
    (hpq : Refines o.policies sys.streams.device p q) :
    Imitates Eq (fun fuel => sys.runProgram fuel a o file p)
      (fun fuel => sys.runProgram fuel b { o with optimization } file q) := by
  refine .bind_left sys.stopwatch fun elapsed => ?_
  refine (Options.run_imitates o optimization hpq).bind_right rfl ?_
  intro outcome outcome' ho
  obtain ⟨hfailure, htape⟩ := ho
  cases outcome with
  | finished machine =>
    cases outcome' with
    | failed f machine' => cases hfailure
    | finished machine' =>
      have htape : machine'.tape = machine.tape := htape
      simp only [note_quiet ha, note_quiet (h.isQuietRun ha), pure_bind, writeTape_optimize h, htape]
      exact .refl _
  | failed f machine =>
    cases outcome' with
    | finished machine' => cases hfailure
    | failed f' machine' =>
      cases hfailure
      cases f with
      | device e | fault e => exact .refl _

/-- **What is done with a file** is the same but for the program that is
run. -/
theorem runFile_imitates (h : a.OptimizesLike (some n) b) (ha : a.IsQuietRun) {o : Options}
    (ho : o.optimization = none) (optimization : Option Budget) (file : String) :
    Imitates Eq (fun fuel => sys.runFile fuel a o file)
      (fun fuel => sys.runFile fuel b { o with optimization } file) := by
  have hb : b.IsQuietRun := h.isQuietRun ha
  refine .bind_left (sys.openSource file) fun source => ?_
  cases source with
  | error e => exact .refl _
  | ok source =>
    simp only
    cases Program.ofReplies source with
    | error e =>
      cases e with
      | bracket e | read e => exact .refl _
    | ok p =>
      have hp : Refines o.policies sys.streams.device (o.compile p)
          ({ o with optimization }.compile p) := by
        rw [Options.compile_of_none ho]
        exact Options.refines_compile { o with optimization } p
      simp only [note_quiet ha, note_quiet hb, pure_bind, ite_self, ha.emit, hb.emit]
      exact runProgram_imitates h ha o optimization file hp

/-- The options for a count have the tape and the policies of those without
one. -/
theorem ofIntegers_passCount {size : Int} (hsize : 0 < size) (policies : Policies) (n : Int) :
    ∃ optimization, Options.ofIntegers size policies (passCount n) =
      .ok { tapeSize := size.toNat, policies, optimization,
            tapeSize_pos := Tape.toNat_size_pos hsize } := by
  have hcount : ∀ k, passCount n = some k → 0 ≤ k := by
    intro k hk
    unfold passCount at hk
    split at hk
    · cases hk
    · split at hk <;> cases hk <;> omega
  unfold Options.ofIntegers
  rw [dif_pos hsize]
  cases hn : passCount n with
  | none => exact ⟨none, rfl⟩
  | some k => exact ⟨some (.ofNat k.toNat), if_pos (hcount k hn)⟩

/-- **Arguments with a count do as they do without one.** -/
theorem runArguments_imitates (h : a.OptimizesLike (some n) b) (ha : a.IsQuietRun)
    (hoff : a.optimize = some 0) :
    Imitates Eq (fun fuel => sys.runArguments fuel a) (fun fuel => sys.runArguments fuel b) := by
  obtain ⟨hfile, hsize, hpolicies, k, hk⟩ : b.file = a.file ∧ b.size = a.size ∧
      b.policies = a.policies ∧ ∃ k, b.optimize = some k := by
    rcases h with rfl | rfl
    · exact ⟨rfl, rfl, rfl, 0, hoff⟩
    · exact ⟨rfl, rfl, rfl, n, rfl⟩
  unfold runArguments
  rw [hfile, hsize, hpolicies, hk, hoff]
  cases a.file with
  | none => exact .refl _
  | some file =>
    refine .bind_left (sys.isDirectory file) fun directory => ?_
    cases directory with
    | true => exact .refl _
    | false =>
      cases a.size with
      | none => exact .refl _
      | some size =>
        by_cases hle : size ≤ 0
        · simp only [if_pos hle]
          exact .refl _
        · have hpos : 0 < size := Int.not_le.1 hle
          have hnone : Options.ofIntegers size a.policies (passCount 0) = _ := dif_pos hpos
          obtain ⟨optimization, hsome⟩ := ofIntegers_passCount hpos a.policies k
          simp only [if_neg hle, hnone, hsome]
          exact runFile_imitates h ha rfl optimization file

/-- The command ends with an exit and leaves its system in a state, under
all large bounds. -/
def Ends (sys : System (StateM σ)) (argv : List String) (s : σ) (exit : Exit) (t : σ) : Prop :=
  ∃ bound, ∀ fuel, bound ≤ fuel → sys.main fuel argv s = (some exit, t)

/-- **The command ends alike**, whether its arguments are refused or run. -/
theorem ends_of_alike {argv argv' : List String} {s t : σ} {exit : Exit}
    (h : Alike (Arguments.OptimizesLike (some n)) (Arguments.ofList argv) (Arguments.ofList argv'))
    (hquiet : ∀ a, Arguments.ofList argv = .ok a → a.optimize = some 0 ∧ a.IsQuietRun)
    {fuel : Nat} (hm : sys.main fuel argv s = (some exit, t)) : sys.Ends argv' s exit t := by
  unfold main at hm
  generalize hx : Arguments.ofList argv = x at h hm hquiet
  generalize hy : Arguments.ofList argv' = y at h
  cases h with
  | error e =>
    refine ⟨0, fun larger _ => ?_⟩
    rw [main, hy]
    cases e with
    | help | usage e => exact hm
  | ok hab =>
    obtain ⟨hoff, ha⟩ := hquiet _ rfl
    obtain ⟨bound, exit', rfl, hends⟩ := runArguments_imitates hab ha hoff fuel s exit t hm
    refine ⟨bound, fun larger hle => ?_⟩
    rw [main, hy]
    exact hends larger hle

end System

/-- **The optimizer changes nothing that the user sees.** Take arguments that
ask for no more than a run, not for the printed program or the log, and not
for the optimizer. Where the command ends with them, on whatever system, it
ends with the same exit and leaves the same streams, files and messages if a
count is added, be it zero, a limit or negative: wherever among the
arguments it stands, as long as they are read, and in front of any of them,
also of those that are refused. What can stand there as a count is any text
that is read as an integer, such as the integer itself if it has no more than
`Text.digitLimit` digits (`classifyOne_toString`, `Text.readInteger_toString`);
the limit is one on what is read, and `Diagnostic.render` prints integers of
any length. The same holds of the run of a source with any options: it comes to
the same rejection, or ends with the same failure, if any, the same tape and
the same state of the device. -/
theorem optimizer_invisible {σ τ ε : Type} (sys : System (StateM σ))
    (device : Device (StateM τ) ε) :
    (∀ (argv argv' : List String) (a : Arguments) (n : Int) (fuel : Nat) (s t : σ) (exit : Exit),
      Arguments.ofList argv = .ok a → a.optimize = some 0 → a.IsQuietRun →
      Arguments.ofList argv' = .ok { a with optimize := some n } →
      sys.main fuel argv s = (some exit, t) → sys.Ends argv' s exit t) ∧
    (∀ (argv : List String) (count : String) (n : Int) (fuel : Nat) (s t : σ) (exit : Exit),
      (∀ a, Arguments.ofList argv = .ok a → a.optimize = some 0 ∧ a.IsQuietRun) →
      classifyOne count = .ok .operand → Text.readInteger count.toList = some n →
      sys.main fuel argv s = (some exit, t) → sys.Ends ("-O" :: count :: argv) s exit t) ∧
    ∀ (o : Options) (passes : Nat) (source : List Reply) (fuel : Nat) (s t : τ)
      (result : SourceOutcome ε), o.optimization = none →
      o.runSource device fuel source s = (some result, t) →
      ∃ bound result', result.Agrees result' ∧ ∀ larger, bound ≤ larger →
        { o with optimization := some (.ofNat passes) }.runSource device larger source s =
          (some result', t) := by
  refine ⟨?_, ?_, ?_⟩
  · intro argv argv' a n fuel s t exit ha hoff hquiet hb hm
    refine System.ends_of_alike (n := n) ?_ ?_ hm
    · rw [ha, hb]
      exact .ok (Or.inr rfl)
    · intro a' ha'
      cases ha.symm.trans ha'
      exact ⟨hoff, hquiet⟩
  · intro argv count n fuel s t exit hquiet hc hn hm
    exact System.ends_of_alike (Arguments.ofList_optimize hc hn argv) hquiet hm
  · intro o passes source fuel s t result ho hr
    exact Options.runSource_imitates ho _ source fuel s result t hr

/-- A disk with a program that goes down, up, and prints. -/
def downUpPrint : World where
  script := { input := .text [] }
  disk := { files := [(["f"], [45, 43, 46])] }

/-- The same disk, after one has been printed. -/
def downUpPrint.ended : World where
  script := { input := .text [], written := "\x01", writes := 1, flushes := 1 }
  disk := downUpPrint.disk

/-- A tape of one cell that saturates. -/
def oneClampedCell : Options where
  tapeSize := 1
  policies := ⟨.wrap, .clamp⟩
  tapeSize_pos := by decide

/-- On clamped cells going down from zero and up comes to one. An optimizer
that took the cells for wrapping would leave both out. -/
theorem optimizer_invisible_downUpPrint :
    (World.system "0").main 20 ["--clamp-cells", "f"] downUpPrint =
      (some (.code 0), downUpPrint.ended) ∧
    (World.system "0").Ends ["f", "--clamp-cells", "-O2"] downUpPrint (.code 0)
      downUpPrint.ended ∧
    (World.system "0").Ends ["-O", toString (-1 : Int), "--clamp-cells", "f"] downUpPrint (.code 0)
      downUpPrint.ended ∧
    ∃ bound result, SourceOutcome.Agrees (.ran (.act (.add 255) (.act (.add 1) (.act .output .nil)))
        (.finished ⟨⟨#[1], 0, by decide⟩, 3⟩)) result ∧
      ∀ fuel, bound ≤ fuel →
        { oneClampedCell with optimization := some (.ofNat 0) }.runSource Buffer.device fuel
          [.bytes [45], .bytes [43], .bytes [46]] ⟨[], ""⟩ =
            (some result, ⟨[], "".push '\x01'⟩) := by
  obtain ⟨hread, hfront, hsource⟩ := optimizer_invisible (World.system "0") Buffer.device
  have hargs : Arguments.ofList ["--clamp-cells", "f"] =
      .ok { file := some "f", clampCells := true } := rfl
  have hmain : (World.system "0").main 20 ["--clamp-cells", "f"] downUpPrint =
      (some (.code 0), downUpPrint.ended) := rfl
  refine ⟨hmain, ?_, ?_, ?_⟩
  · exact hread _ _ _ 2 _ _ _ _ hargs rfl ⟨rfl, rfl⟩ rfl hmain
  · refine hfront _ _ (-1) _ _ _ _ ?_ (classifyOne_toString (-1))
      (Text.readInteger_toString (by decide)) hmain
    intro a ha
    cases hargs.symm.trans ha
    exact ⟨rfl, rfl, rfl⟩
  · have hrun : oneClampedCell.runSource Buffer.device 20 [.bytes [45], .bytes [43], .bytes [46]]
        ⟨[], ""⟩ = (some (.ran (.act (.add 255) (.act (.add 1) (.act .output .nil)))
          (.finished ⟨⟨#[1], 0, by decide⟩, 3⟩)), ⟨[], "".push '\x01'⟩) := rfl
    exact hsource oneClampedCell 0 _ 20 _ _ _ rfl hrun

end Brainfuck.CommandLine
