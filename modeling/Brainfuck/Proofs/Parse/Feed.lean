import Brainfuck.Program.Grammar
/-!
# What the parser takes from a source of bytes

The parser asks a source for one byte after another. On a source that
answers every request with a byte this comes to a fold over the commands
among the bytes, each with the position it stands at: `feedTo_after_cons` is
one turn of the loop, `feedTo_after` the whole of it, and `parse_eq` what the
parser as a whole returns. Comment moves the positions of what follows it
and does nothing else.
-/

namespace Brainfuck

/-- The commands among bytes with their positions, after a byte at the given
position. -/
def marks (position : Position) (afterNewline : Bool) : List UInt8 → List (Position × Symbol)
  | [] => []
  | b :: data =>
    let here := position.next afterNewline
    match Symbol.ofByte? b with
    | some s => (here, s) :: marks here (b = 10) data
    | none => marks here (b = 10) data

/-- The positions left out, these are the commands among the bytes. -/
theorem map_snd_marks (position : Position) (afterNewline : Bool) (data : List UInt8) :
    (marks position afterNewline data).map Prod.snd = commands data := by
  induction data generalizing position afterNewline with
  | nil => rfl
  | cons b data ih =>
    rw [marks]
    cases hb : Symbol.ofByte? b with
    | none =>
      have hc : commands (b :: data) = commands data := List.filterMap_cons_none hb
      rw [hc]
      exact ih _ _
    | some s =>
      have hc : commands (b :: data) = s :: commands data := List.filterMap_cons_some hb
      simp only [List.map_cons]
      rw [hc, ih]

namespace Draft

/-- Takes commands at their positions, one after another. -/
def feedAll (d : Draft) (ms : List (Position × Symbol)) : Except BracketError Draft :=
  ms.foldlM (fun d m => d.feed m.1 (some m.2)) d

@[simp] theorem feedAll_nil (d : Draft) : d.feedAll [] = .ok d := rfl

theorem feedAll_cons (d : Draft) (p : Position) (s : Symbol) (ms : List (Position × Symbol)) :
    d.feedAll ((p, s) :: ms) = d.feed p (some s) >>= fun d => d.feedAll ms := rfl

/-- A row of commands is taken as its two parts are. -/
theorem feedAll_append (d : Draft) (ms ns : List (Position × Symbol)) :
    d.feedAll (ms ++ ns) = d.feedAll ms >>= fun d => d.feedAll ns := by
  unfold feedAll
  exact List.foldlM_append

end Draft

namespace Source

/-- A source of bytes, after a byte at the given position. -/
def after (position : Position) (afterNewline : Bool) (data : List UInt8) : Source :=
  { replies := data.map fun b => .bytes [b], position, afterNewline }

theorem ofBytes_eq (data : List UInt8) : ofBytes data = .after .start false data := rfl

theorem remaining_after (position : Position) (afterNewline : Bool) (data : List UInt8) :
    (Source.after position afterNewline data).remaining = data.length := by
  simp [remaining, Source.after]

/-- At the end of the bytes the parser finds the end, and takes nothing. -/
theorem feedTo_after_nil (d : Draft) (n : Nat) (position : Position) (afterNewline : Bool) :
    feedTo d (n + 1) (.after position afterNewline []) =
      .ok d { Source.after position afterNewline [] with lookahead := .ended } := rfl

/-- One turn of the parser: it takes one byte, and asks for nothing beyond
it. -/
theorem feedTo_after_cons (d : Draft) (n : Nat) (position : Position) (afterNewline : Bool)
    (b : UInt8) (data : List UInt8) :
    feedTo d (n + 1) (.after position afterNewline (b :: data)) =
      match d.feed (position.next afterNewline) (Symbol.ofByte? b) with
      | .ok d => feedTo d n (.after (position.next afterNewline) (b = 10) data)
      | .error e => .error (.bracket e) (.after (position.next afterNewline) (b = 10) data) := by
  have hturn : feedTo d (n + 1) (.after position afterNewline (b :: data)) =
      (checking (d.feed (position.next afterNewline) (Symbol.ofByte? b)) >>= fun d => feedTo d n)
        (.after (position.next afterNewline) (b = 10) data) := rfl
  rw [hturn]
  cases d.feed (position.next afterNewline) (Symbol.ofByte? b) <;> rfl

/-- **The parser folds over the commands.** It takes them in their order up
to the first that cannot be taken. -/
theorem feedTo_after (data : List UInt8) : ∀ (d : Draft) (n : Nat) (position : Position)
    (afterNewline : Bool), data.length < n →
    ∃ s, feedTo d n (.after position afterNewline data) =
      match d.feedAll (marks position afterNewline data) with
      | .ok d => .ok d s
      | .error e => .error (.bracket e) s := by
  induction data with
  | nil =>
    intro d n position afterNewline hn
    obtain ⟨n, rfl⟩ : ∃ m, n = m + 1 := ⟨n - 1, by omega⟩
    exact ⟨_, feedTo_after_nil d n position afterNewline⟩
  | cons b data ih =>
    intro d n position afterNewline hn
    obtain ⟨n, rfl⟩ : ∃ m, n = m + 1 := ⟨n - 1, by omega⟩
    have hlt : data.length < n := by
      simp only [List.length_cons] at hn
      omega
    rw [feedTo_after_cons, marks]
    cases hb : Symbol.ofByte? b with
    | none => exact ih d n _ _ hlt
    | some s =>
      simp only [Draft.feedAll_cons]
      cases hf : d.feed (position.next afterNewline) (some s) with
      | error e => exact ⟨_, rfl⟩
      | ok d' => exact ih d' n _ _ hlt

/-- The parser has enough turns for every byte and the end. -/
theorem parse_ofBytes (data : List UInt8) :
    parse (.ofBytes data) =
      (feedTo {} (data.length + 1) >>= fun d => checking d.finish) (.after .start false data) := by
  rw [ofBytes_eq, ← remaining_after .start false data]
  rfl

end Source

theorem Program.parse_of_ok {data : List UInt8} {p : Program} {s : Source}
    (h : Source.parse (.ofBytes data) = .ok p s) : Program.parse data = .ok p := by
  rw [Source.ofBytes] at h
  rw [Program.parse, Program.ofReplies, h]

theorem Program.parse_of_error {data : List UInt8} {e : ParseError} {s : Source}
    (h : Source.parse (.ofBytes data) = .error e s) : Program.parse data = .error e := by
  rw [Source.ofBytes] at h
  rw [Program.parse, Program.ofReplies, h]

/-- What the parser makes of bytes: the commands are taken one after another
from the first, and then the draft is finished. -/
theorem Program.parse_eq (data : List UInt8) :
    Program.parse data =
      (({} : Draft).feedAll (marks .start false data) >>= Draft.finish).mapError .bracket := by
  obtain ⟨s, hs⟩ := Source.feedTo_after data {} (data.length + 1) .start false (Nat.lt_succ_self _)
  have hrun := Source.parse_ofBytes data
  simp only [bind, EStateM.bind, hs] at hrun
  cases hd : ({} : Draft).feedAll (marks .start false data) with
  | error e =>
    simp only [hd] at hrun
    exact Program.parse_of_error hrun
  | ok d =>
    simp only [hd] at hrun
    simp only [bind, Except.bind]
    cases hf : d.finish with
    | error e =>
      rw [hf] at hrun
      exact Program.parse_of_error hrun
    | ok p =>
      rw [hf] at hrun
      exact Program.parse_of_ok hrun

end Brainfuck
