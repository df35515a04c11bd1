import Brainfuck.Proofs.CommandLine.Notes
import Brainfuck.Proofs.Disk
/-!
# What is seen of a command from outside

A system has an output and files. A view of a system (`System.View`) tells what
the output has taken and what is in the files, by whatever the system tells
them apart. Two calls change what is seen: a write that succeeds, and the
creation of a file.

So what a command leaves behind follows from the notes of its calls
(`System.View.main_follows`). One call adds to the notes what it does to what
is seen, and the command keeps this as it keeps what every call keeps.

A world is seen this way (`World.view`): its output is what its script has
written, and its files are those of its disk, by their place in the tree.
-/

namespace Brainfuck.CommandLine

variable {σ κ : Type}

/-- What is seen from outside: the text that the output has taken, and the
files. -/
@[ext]
structure Seen (κ : Type) where
  output : String
  files : Listing κ

/-- A view of a system. A write that succeeds adds its text to the output, a
file that was created holds what it was to hold, and no other call changes what
is seen. -/
structure System.View (sys : System (StateM σ)) (κ : Type) where
  seen : σ → Seen κ
  read : ∀ s, seen (sys.streams.read s).2 = seen s
  write_ok : ∀ text s t, sys.streams.write text s = (.ok (), t) →
    seen t = { seen s with output := (seen s).output ++ text }
  write_error : ∀ text s reason t, sys.streams.write text s = (.error reason, t) → seen t = seen s
  flush : ∀ s, seen (sys.streams.flush s).2 = seen s
  isDirectory : ∀ path s, seen (sys.isDirectory path s).2 = seen s
  openSource : ∀ path s, seen (sys.openSource path s).2 = seen s
  content? : ∀ path s, seen (sys.content? path s).2 = seen s
  create_ok : ∀ path data s t, sys.create path data s = (.ok (), t) →
    (seen t).output = (seen s).output ∧ (seen s).files.Wrote path data (seen t).files
  create_error : ∀ path data s e t, sys.create path data s = (.error e, t) → seen t = seen s
  report : ∀ message s, seen (sys.report message s).2 = seen s
  stopwatch : ∀ s, seen (sys.stopwatch s).2 = seen s
  elapsed : ∀ s t, seen ((sys.stopwatch s).1 t).2 = seen t

/-! ## By the notes -/

namespace System.View

variable {sys : System (StateM σ)} {view : sys.View κ} {s u v : σ} {log : List SystemCall}

/-- What is seen in the end is what was seen at the start and what was done
according to the notes. -/
structure Follows (view : sys.View κ) (s : σ) (log : List SystemCall) (t : σ) : Prop where
  output : (view.seen t).output = (view.seen s).output ++ delivered (streamCalls log)
  unchanged : (∀ path data, SystemCall.create path data (.ok ()) ∉ creations log) →
    (view.seen t).files = (view.seen s).files
  created : ∀ path data, creations log = [.create path data (.ok ())] →
    (view.seen s).files.Wrote path data (view.seen t).files

theorem Follows.refl (view : sys.View κ) (s : σ) : view.Follows s [] s where
  output := String.append_empty.symm
  unchanged _ := rfl
  created _ _ h := nomatch h

/-- Where nothing was done with the streams or with a file, nothing is seen. -/
theorem Follows.seen_eq (h : view.Follows s log u) (hstreams : streamCalls log = [])
    (hcreations : creations log = []) : view.seen u = view.seen s := by
  have houtput := h.output
  rw [hstreams] at houtput
  exact Seen.ext (houtput.trans String.append_empty)
    (h.unchanged fun _ _ => hcreations ▸ List.not_mem_nil)

/-- Calls that leave the files alone. -/
theorem Follows.step (h : view.Follows s log u) (added : List SystemCall)
    (hcreations : creations added = [])
    (houtput : (view.seen v).output = (view.seen u).output ++ delivered (streamCalls added))
    (hfiles : (view.seen v).files = (view.seen u).files) :
    view.Follows s (added ++ log) v where
  output := by
    rw [houtput, h.output, streamCalls_append, delivered_append, String.append_assoc]
  unchanged := by
    rw [creations_append, hcreations, List.nil_append, hfiles]
    exact h.unchanged
  created := by
    rw [creations_append, hcreations, List.nil_append, hfiles]
    exact h.created

/-- Calls that change nothing. -/
theorem Follows.idle (h : view.Follows s log u) (added : List SystemCall)
    (hcreations : creations added = []) (hdelivered : delivered (streamCalls added) = "")
    (hseen : view.seen v = view.seen u) : view.Follows s (added ++ log) v := by
  refine h.step added hcreations ?_ (congrArg Seen.files hseen)
  rw [hseen, hdelivered, String.append_empty]

/-- A file is created, or it is not. -/
theorem Follows.create (h : view.Follows s log u) {path : String} {data : List UInt8}
    {answer : Except FileError Unit} (hcreate : sys.create path data u = (answer, v)) :
    view.Follows s (.create path data answer :: log) v := by
  cases answer with
  | error e =>
    have hseen : view.seen v = view.seen u := view.create_error path data u e v hcreate
    refine ⟨?_, fun hnone => ?_, fun path data hone => ?_⟩
    · rw [hseen]
      exact h.output
    · rw [hseen]
      exact h.unchanged fun path data hmem => hnone path data (List.mem_cons_of_mem _ hmem)
    · cases hone
  | ok answer =>
    obtain ⟨houtput, hwrote⟩ := view.create_ok path data u v hcreate
    refine ⟨?_, fun hnone => ?_, fun path' data' hone => ?_⟩
    · rw [houtput]
      exact h.output
    · exact absurd (List.mem_cons_self ..) (hnone path data)
    · -- It is the only one, so the files were those of the start.
      have hfirst : creations log = [] := (List.cons.inj hone).2
      obtain ⟨rfl, rfl⟩ : path = path' ∧ data = data' := by
        have hcall := (List.cons.inj hone).1
        exact ⟨(SystemCall.create.inj hcall).1, (SystemCall.create.inj hcall).2.1⟩
      have hsame : (view.seen u).files = (view.seen s).files :=
        h.unchanged fun _ _ => hfirst ▸ List.not_mem_nil
      rwa [hsame] at hwrote

/-- **Every call leaves what its note says.** -/
theorem keeps_follows (view : sys.View κ) (s : σ) :
    sys.recorded.Keeps fun x => view.Follows s x.1 x.2 where
  read := fun (_, u) h => h.idle [.stream (.read (sys.streams.read u).1)] rfl rfl (view.read u)
  write := by
    rintro text ⟨log, u⟩ h
    simp only [System.recorded, Streams.recorded]
    rcases hw : sys.streams.write text u with ⟨reason | _, v⟩
    · exact h.idle [.stream (.write text (.error reason))] rfl rfl
        (view.write_error text u reason v hw)
    · have hseen := view.write_ok text u v hw
      have hfiles : (view.seen v).files = (view.seen u).files := by rw [hseen]
      have houtput : (view.seen v).output = (view.seen u).output ++ text := by rw [hseen]
      refine h.step [.stream (.write text (.ok ()))] rfl ?_ hfiles
      exact houtput.trans (congrArg ((view.seen u).output ++ ·) String.empty_append.symm)
  flush := fun (_, u) h =>
    h.idle [.stream (.flush (sys.streams.flush u).1)] rfl rfl (view.flush u)
  isDirectory := fun path (_, u) h => h.idle [] rfl rfl (view.isDirectory path u)
  openSource := fun path (_, u) h =>
    h.idle [.openSource path (sys.openSource path u).1] rfl rfl (view.openSource path u)
  content? := fun path (_, u) h =>
    h.idle [.content path (sys.content? path u).1] rfl rfl (view.content? path u)
  create := fun _ _ (_, _) h => h.create rfl
  report := fun message (_, u) h => h.idle [.report message] rfl rfl (view.report message u)
  stopwatch := fun (_, u) h => h.idle [] rfl rfl (view.stopwatch u)
  elapsed := fun (_, u) (_, v) _ h => h.idle [] rfl rfl (view.elapsed u v)

/-- **What a command leaves behind follows from its notes.** -/
theorem main_follows (view : sys.View κ) (fuel : Nat) (argv : List String) (s : σ) :
    view.Follows s (sys.recorded.main fuel argv ([], s)).2.1
      (sys.recorded.main fuel argv ([], s)).2.2 :=
  (view.keeps_follows s).main fuel argv (Follows.refl view s)

end System.View

/-! ## The view of a world -/

namespace World

variable (elapsed : String)

theorem write_apply (text : String) (w : World) :
    (system elapsed).streams.write text w =
      ((Script.streams.write text w.script).1,
        { w with script := (Script.streams.write text w.script).2 }) :=
  rfl

theorem create_cases (path : String) (data : List UInt8) (w : World) :
    (∃ e, (system elapsed).create path data w = (.error e, w)) ∨
    ∃ disk, (system elapsed).create path data w = (.ok (), { w with disk }) ∧
      w.disk.create path data = .ok disk := by
  cases h : w.disk.create path data with
  | error e => exact Or.inl ⟨e, by simp only [system, h]⟩
  | ok disk => exact Or.inr ⟨disk, by simp only [system, h], rfl⟩

/-- What its script has written, and the files of its disk. -/
def view : (system elapsed).View Path where
  seen w := ⟨w.script.written, w.disk.listing⟩
  read w := congrArg (Seen.mk · w.disk.listing) w.script.written_read
  write_ok text w w' hw := by
    rcases w.script.write_cases text with
      ⟨reason, script, hscript, -⟩ | ⟨script, hscript, htext⟩ <;>
      rw [write_apply, hscript] at hw <;> cases hw
    rw [htext]
  write_error text w reason w' hw := by
    rcases w.script.write_cases text with
      ⟨reason, script, hscript, htext⟩ | ⟨script, hscript, -⟩ <;>
      rw [write_apply, hscript] at hw <;> cases hw
    rw [htext]
  flush w := congrArg (Seen.mk · w.disk.listing) w.script.written_flush
  isDirectory _ _ := rfl
  openSource _ _ := rfl
  content? _ _ := rfl
  create_ok path data w w' hw := by
    rcases create_cases elapsed path data w with ⟨e, he⟩ | ⟨disk, hok, hdisk⟩
    · cases he.symm.trans hw
    · cases hok.symm.trans hw
      exact ⟨rfl, Disk.wrote_of_create hdisk⟩
  create_error path data w e w' hw := by
    rcases create_cases elapsed path data w with ⟨e, he⟩ | ⟨disk, hok, -⟩
    · cases he.symm.trans hw
      rfl
    · cases hok.symm.trans hw
  report _ _ := rfl
  stopwatch _ := rfl
  elapsed _ _ := rfl

end World

end Brainfuck.CommandLine
