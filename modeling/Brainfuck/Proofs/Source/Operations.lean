import Brainfuck.Proofs.Source.Reading
import Brainfuck.Proofs.Text.Lines
import Mathlib.Data.List.TakeWhile
/-!
# What the operations of a source do

The operations of a source may follow one another in any order, and some of
them may fail. `Reached` is the invariant: what was requested so far, what
was used up of it, and where the source stands. It knows nothing of
operations: a request and the consumption of a byte preserve it, and so do
rows of them (`Reached.reads`).

Each operation is such a row, and `Responds` says what it answers to the
items it uses up. `operations_lose_nothing` puts the two together.
-/

namespace Brainfuck

/-! ## Places -/

/-- The position of a byte, told by the bytes in front of it: its index, one
more than the line feeds there are, and how far it is from the last of these,
or from the place before the first byte. -/
structure Position.Follows (before : List UInt8) (p : Position) : Prop where
  offset : p.offset = before.length
  line : p.line = 1 + before.count 10
  column : ∀ pre post, before = pre ++ 10 :: post → 10 ∉ post →
    (p.column : Int) = before.length - pre.length
  column_first : 10 ∉ before → (p.column : Int) = before.length - (-1)

theorem Position.behind_follows (before : List UInt8) : (behind before).Follows before where
  offset := rfl
  line := Nat.add_comm _ _
  column := by
    rintro before post rfl hpost
    -- the line feed stands in front of `post`, and none of `post` ends the count
    have hall := List.takeWhile_eq_self_iff.2 (bne_of_not_mem (mt List.mem_reverse.1 hpost))
    have hcount : (before ++ 10 :: post).reverse.takeWhile (· != 10) = post.reverse := by
      rw [List.reverse_append, List.reverse_cons, List.append_assoc]
      exact (takeWhile_append_cons_self post.reverse before.reverse).trans hall
    simp only [behind, hcount, List.length_reverse, List.length_append, List.length_cons]
    omega
  column_first := by
    intro h
    have hall := List.takeWhile_eq_self_iff.2 (bne_of_not_mem (mt List.mem_reverse.1 h))
    simp only [behind, hall, List.length_reverse]
    omega

namespace Source

variable {script asked : List Reply} {past log : List Item} {s s' : Source}

/-! ## What there is to read -/

/-- The items that answers bring, up to the first end. -/
def items : List Reply → List Item
  | [] => []
  | reply :: rest =>
    match reply.item? with
    | some item => item :: items rest
    | none => []

/-- The items that are still to come. -/
def coming (s : Source) : List Item :=
  match s.lookahead with
  | .unread => items s.replies
  | .ready b => .ok b :: items s.replies
  | .ended => []

/-- The bytes among items. -/
def bytes (log : List Item) : List UInt8 := log.filterMap Except.toOption

@[simp] theorem bytes_append (log log' : List Item) :
    bytes (log ++ log') = bytes log ++ bytes log' := List.filterMap_append

@[simp] theorem bytes_ok (b : UInt8) : bytes [.ok b] = [b] := rfl

@[simp] theorem bytes_error (e : ReadError) : bytes [.error e] = [] := rfl

/-- Answers that all bring an item stand in front with their items. -/
theorem items_append (h : asked.map Reply.item? = past.map some) (rest : List Reply) :
    items (asked ++ rest) = past ++ items rest := by
  induction asked generalizing past with
  | nil =>
    obtain rfl : past = [] := List.map_eq_nil_iff.1 h.symm
    rfl
  | cons reply asked ih =>
    cases past with
    | nil => cases h
    | cons item past =>
      obtain ⟨hitem, hrest⟩ := List.cons.inj h
      simp only [List.cons_append, items, hitem, ih hrest]

/-! ## The invariant -/

/-- The source stands behind the bytes. -/
def StandsBehind (data : List UInt8) (s : Source) : Prop :=
  (data = [] ∧ s.position = .start ∧ s.afterNewline = false) ∨
    ∃ before b, data = before ++ [b] ∧ s.position = .behind before ∧
      s.afterNewline = decide (b = 10)

/-- The source that answers with `script` has been asked for `asked`, and of
that `past` was used up. All answers brought an item. The items were used up,
but for one byte that is ready; or the source has ended, with the answer that
said so or with no answer left. -/
structure Reached (script asked : List Reply) (past : List Item) (s : Source) : Prop where
  replies : script = asked ++ s.replies
  requests :
    (s.lookahead = .unread ∧ asked.map Reply.item? = past.map some) ∨
    (∃ b, s.lookahead = .ready b ∧ asked.map Reply.item? = (past ++ [Except.ok b]).map some) ∨
    (s.lookahead = .ended ∧ (asked.map Reply.item? = past.map some ++ [none] ∨
      asked.map Reply.item? = past.map some ∧ s.replies = []))
  place : s.StandsBehind (bytes past)

/-- Where the next byte will be. -/
theorem StandsBehind.next_eq {data : List UInt8} (h : s.StandsBehind data) :
    s.position.next s.afterNewline = .behind data := by
  rcases h with ⟨rfl, hp, hn⟩ | ⟨before, b, rfl, hp, hn⟩
  · rw [hp, hn]
    exact Position.next_start
  · rw [hp, hn]
    exact Position.next_behind before b

namespace Reached

/-- At first nothing is requested. -/
theorem start (script : List Reply) : Reached script [] [] (ofReplies script) where
  replies := rfl
  requests := Or.inl ⟨rfl, rfl⟩
  place := Or.inl ⟨rfl, rfl, rfl⟩

/-- With nothing ready and no end, the items requested are those used up. -/
theorem requests_of_unread (h : Reached script asked past s) (hl : s.lookahead = .unread) :
    asked.map Reply.item? = past.map some := by
  rcases h.requests with ⟨-, ha⟩ | ⟨b, hb, -⟩ | ⟨he, -⟩
  · exact ha
  · exact Lookahead.noConfusion (hl.symm.trans hb)
  · exact Lookahead.noConfusion (hl.symm.trans he)

/-- A request that succeeds. -/
theorem request (h : Reached script asked past s) (hr : Source.request s = .ok () s') :
    ∃ newly, Reached script (asked ++ newly) past s' := by
  rcases request_cases s with ⟨-, hr'⟩ | ⟨hl, hnone, hr'⟩ | ⟨reply, rest, hl, hrep, hr'⟩
  · rw [hr'] at hr
    cases hr
    exact ⟨[], (List.append_nil asked).symm ▸ h⟩
  · have ha := h.requests_of_unread hl
    rw [hr'] at hr
    cases hr
    refine ⟨[], ?_, Or.inr (Or.inr ⟨rfl, Or.inr ⟨?_, hnone⟩⟩), h.place⟩
    · rw [List.append_nil]
      exact h.replies
    · rw [List.append_nil]
      exact ha
  · have ha := h.requests_of_unread hl
    have hscript : script = (asked ++ [reply]) ++ rest := by
      rw [h.replies, hrep, List.append_assoc]
      rfl
    rw [hr'] at hr
    rcases hi : reply.item? with _ | e | b
    · rw [hi] at hr
      cases hr
      refine ⟨[reply], hscript, Or.inr (Or.inr ⟨rfl, Or.inl ?_⟩), h.place⟩
      simp [ha, hi]
    · rw [hi] at hr
      cases hr
    · rw [hi] at hr
      cases hr
      refine ⟨[reply], hscript, Or.inr (Or.inl ⟨b, rfl, ?_⟩), h.place⟩
      simp [ha, hi]

/-- A failure is used up, and the source stands where it stood. -/
theorem failure {e : ReadError} (h : Reached script asked past s)
    (hr : Source.request s = .error e s') :
    ∃ newly, Reached script (asked ++ newly) (past ++ [.error e]) s' := by
  obtain ⟨reply, hl, hitem, hrep, hs'⟩ := request_error hr
  have ha := h.requests_of_unread hl
  refine ⟨[reply], ?_, Or.inl ⟨?_, ?_⟩, ?_⟩
  · rw [h.replies, hrep, List.append_assoc]
    rfl
  · rw [hs']
    exact hl
  · simp [ha, hitem]
  · have hplace := h.place
    rw [bytes_append, bytes_error, List.append_nil, hs']
    exact hplace

/-- The byte that is ready is used up, and the source stands behind it. -/
theorem consume {b : UInt8} (h : Reached script asked past s) (hl : s.lookahead = .ready b) :
    Reached script asked (past ++ [.ok b]) (s.consume b) where
  replies := h.replies
  requests := by
    rcases h.requests with ⟨hu, -⟩ | ⟨b', hb', ha⟩ | ⟨he, -⟩
    · exact Lookahead.noConfusion (hl.symm.trans hu)
    · obtain rfl := Lookahead.ready.inj (hl.symm.trans hb')
      exact Or.inl ⟨rfl, ha⟩
    · exact Lookahead.noConfusion (hl.symm.trans he)
  place := by
    rw [bytes_append, bytes_ok]
    exact Or.inr ⟨bytes past, b, rfl, h.place.next_eq, rfl⟩

/-- **Rows of requests and bytes preserve the invariant.** -/
theorem reads (h : Reached script asked past s) (hr : s.Reads log s') :
    ∃ newly, Reached script (asked ++ newly) (past ++ log) s' := by
  induction hr generalizing asked past with
  | refl => exact ⟨[], by simpa using h⟩
  | request hr _ ih =>
    obtain ⟨newly, h'⟩ := h.request hr
    obtain ⟨more, h''⟩ := ih h'
    exact ⟨newly ++ more, (List.append_assoc asked newly more) ▸ h''⟩
  | failure hr _ ih =>
    obtain ⟨newly, h'⟩ := h.failure hr
    obtain ⟨more, h''⟩ := ih h'
    rw [List.append_assoc, List.append_assoc] at h''
    exact ⟨newly ++ more, h''⟩
  | consume hl _ ih =>
    obtain ⟨more, h''⟩ := ih (h.consume hl)
    rw [List.append_assoc] at h''
    exact ⟨more, h''⟩

/-- **What was used up and what is to come are what there is to read.** -/
theorem items_eq (h : Reached script asked past s) : items script = past ++ s.coming := by
  rw [h.replies]
  rcases h.requests with ⟨hl, ha⟩ | ⟨b, hl, ha⟩ | ⟨hl, ha | ⟨ha, hnone⟩⟩
  · rw [items_append ha, coming, hl]
  · rw [items_append ha, coming, hl, List.append_assoc]
    rfl
  · obtain ⟨before, last, rfl, hbefore, hlast⟩ := List.map_eq_append_iff.1 ha
    obtain ⟨reply, rfl, hreply⟩ := List.map_eq_singleton_iff.1 hlast
    rw [List.append_assoc, items_append hbefore, coming, hl]
    simp [items, hreply]
  · rw [items_append ha, coming, hl, hnone]
    rfl

/-- The position is told by the bytes that were used up. -/
theorem position_follows {before : List UInt8} {b : UInt8} (h : Reached script asked past s)
    (hb : bytes past = before ++ [b]) : s.position.Follows before := by
  rcases h.place with ⟨hnil, -⟩ | ⟨before', b', hdata, hp, -⟩
  · rw [hnil] at hb
    exact absurd hb.symm (List.append_ne_nil_of_right_ne_nil _ (List.cons_ne_nil b []))
  · rw [hp, (List.append_inj_left' (hb.symm.trans hdata) rfl)]
    exact Position.behind_follows before'

theorem position_start (h : Reached script asked past s) (hb : bytes past = []) :
    s.position = .start := by
  rcases h.place with ⟨-, hp, -⟩ | ⟨before, b, hdata, -⟩
  · exact hp
  · rw [hb] at hdata
    exact absurd hdata.symm (List.append_ne_nil_of_right_ne_nil _ (List.cons_ne_nil b []))

end Reached

/-! ## Operations -/

namespace Operation

/-- What an operation answers, or why it fails. -/
def answer (o : Operation) (s : Source) : Except ParseError Answer :=
  match o.perform s with
  | .ok a _ => .ok a
  | .error e _ => .error e

/-- The source after an operation, carried out or failed. -/
def after (o : Operation) (s : Source) : Source :=
  match o.perform s with
  | .ok _ s' => s'
  | .error _ s' => s'

/-- Whether an operation goes on behind the bytes it has used up. -/
def GoesOn (s : Source) (data : List UInt8) : Operation → Prop
  | .atEnd => data = []
  | .next => data = []
  | .take n => data.length < n
  | .drain => True
  | .parse => ∃ d, ({} : Draft).feedAll (marks s.position s.afterNewline data) = .ok d

end Operation

/-- What an operation that leads from `s` to `s'` answers to the items it uses
up. To ask whether the source has ended uses up nothing, and all others one
command for each byte; the parser gets to the end or stops behind a bracket
that it reports where it stands. A failure is reported by the operation that
has met it. -/
inductive Responds (s s' : Source) : Operation → List Item → Except ParseError Answer → Prop where
  | notEnded {b : UInt8} : s'.lookahead = .ready b → Responds s s' .atEnd [] (.ok (.truth false))
  | ended : s'.lookahead = .ended → Responds s s' .atEnd [] (.ok (.truth true))
  | next (b : UInt8) : Responds s s' .next [.ok b] (.ok (.symbol (Symbol.ofByte? b)))
  | nextEnded : s'.lookahead = .ended → Responds s s' .next [] (.ok (.symbol none))
  | take {n : Nat} {data : List UInt8} :
      data.length = n ∨ data.length < n ∧ s'.lookahead = .ended →
      Responds s s' (.take n) (data.map .ok) (.ok (.symbols (data.map Symbol.ofByte?)))
  | drain {data : List UInt8} : s'.lookahead = .ended →
      Responds s s' .drain (data.map .ok) (.ok (.symbols (data.map Symbol.ofByte?)))
  | parsed {data : List UInt8} {p : Program} : s'.lookahead = .ended →
      Source.parsed s.position s.afterNewline data = .ok p →
      Responds s s' .parse (data.map .ok) (.ok (.program p))
  | rejected {data : List UInt8} {e : BracketError} :
      s'.lookahead = .ended ∨ e = .unmatchedEnd s'.position →
      Source.parsed s.position s.afterNewline data = .error (.bracket e) →
      Responds s s' .parse (data.map .ok) (.error (.bracket e))
  | failed {o : Operation} {data : List UInt8} {e : ReadError} : o.GoesOn s data →
      Responds s s' o (data.map .ok ++ [.error e]) (.error (.read e))

namespace Operation

variable {o : Operation}

/-- An operation that reads answers with what it has read, -/
theorem run_reading_ok {α : Type} {x : EStateM ReadError Source α} {a : α} (f : α → Answer)
    (h : x s = .ok a s') :
    (do return f (← reading x) : EStateM ParseError Source Answer) s = .ok (f a) s' := by
  simp only [bind, EStateM.bind, reading, h]
  rfl

/-- and fails where reading fails. -/
theorem run_reading_error {α : Type} {x : EStateM ReadError Source α} {e : ReadError}
    (f : α → Answer) (h : x s = .error e s') :
    (do return f (← reading x) : EStateM ParseError Source Answer) s = .error (.read e) s' := by
  simp only [bind, EStateM.bind, reading, h]

theorem responds_of_ok {a : Answer} (hp : o.perform s = .ok a s') (hreads : s.Reads log s')
    (h : Responds s s' o log (.ok a)) :
    ∃ log, s.Reads log (o.after s) ∧ Responds s (o.after s) o log (o.answer s) := by
  rw [after, answer, hp]
  exact ⟨log, hreads, h⟩

theorem responds_of_error {e : ParseError} (hp : o.perform s = .error e s')
    (hreads : s.Reads log s') (h : Responds s s' o log (.error e)) :
    ∃ log, s.Reads log (o.after s) ∧ Responds s (o.after s) o log (o.answer s) := by
  rw [after, answer, hp]
  exact ⟨log, hreads, h⟩

/-- **Every operation is a row of requests and bytes**, and answers to the
items it uses up. -/
theorem reads_responds (o : Operation) (s : Source) :
    ∃ log, s.Reads log (o.after s) ∧ Responds s (o.after s) o log (o.answer s) := by
  cases o with
  | atEnd =>
    rcases atEnd_reads s with ⟨b, s', hx, hreads, hl⟩ | ⟨s', hx, hreads, hl⟩ | ⟨e, s', hx, hreads⟩
    · exact responds_of_ok (run_reading_ok .truth hx) hreads (.notEnded hl)
    · exact responds_of_ok (run_reading_ok .truth hx) hreads (.ended hl)
    · have hnone : Operation.atEnd.GoesOn s [] := rfl
      exact responds_of_error (run_reading_error .truth hx) hreads (.failed hnone)
  | next =>
    rcases next_reads s with ⟨b, s', hx, hreads⟩ | ⟨s', hx, hreads, hl⟩ | ⟨e, s', hx, hreads⟩
    · exact responds_of_ok (run_reading_ok .symbol hx) hreads (.next b)
    · exact responds_of_ok (run_reading_ok .symbol hx) hreads (.nextEnded hl)
    · have hnone : Operation.next.GoesOn s [] := rfl
      exact responds_of_error (run_reading_error .symbol hx) hreads (.failed hnone)
  | take n =>
    rcases take_reads n s with ⟨data, s', hx, hreads, hlen⟩ | ⟨data, e, s', hx, hreads, hlen⟩
    · exact responds_of_ok (run_reading_ok .symbols hx) hreads (.take hlen)
    · exact responds_of_error (run_reading_error .symbols hx) hreads (.failed hlen)
  | drain =>
    rcases drain_reads s with ⟨data, s', hx, hreads, hl⟩ | ⟨data, e, s', hx, hreads⟩
    · exact responds_of_ok (run_reading_ok .symbols hx) hreads (.drain hl)
    · have hon : Operation.drain.GoesOn s data := trivial
      exact responds_of_error (run_reading_error .symbols hx) hreads (.failed hon)
  | parse =>
    rcases parse_reads s with ⟨data, p, s', hx, hreads, hp, hl⟩ |
      ⟨data, e, s', hx, hreads, hp, hl⟩ | ⟨data, d, e, s', hx, hreads, hd⟩
    · have hperform : Operation.parse.perform s = .ok (.program p) s' := by
        simp only [perform, bind, EStateM.bind, hx]
        rfl
      exact responds_of_ok hperform hreads (.parsed hl hp)
    · have hperform : Operation.parse.perform s = .error (.bracket e) s' := by
        simp only [perform, bind, EStateM.bind, hx]
      exact responds_of_error hperform hreads (.rejected hl hp)
    · have hperform : Operation.parse.perform s = .error (.read e) s' := by
        simp only [perform, bind, EStateM.bind, hx]
      exact responds_of_error hperform hreads (.failed ⟨d, hd⟩)

/-- Where a source has ended, it says so, -/
theorem answer_atEnd_of_ended (h : s.lookahead = .ended) :
    Operation.atEnd.answer s = .ok (.truth true) := by
  have hr : request s = .ok () s :=
    request_of_ne_unread fun hu => Lookahead.noConfusion (h.symm.trans hu)
  have hend := atEnd_of_request hr
  rw [h] at hend
  have hperform : Operation.atEnd.perform s = .ok (.truth true) s := run_reading_ok .truth hend
  rw [answer, hperform]

/-- and operations leave it as it is. -/
theorem after_of_ended (o : Operation) (h : s.lookahead = .ended) : o.after s = s := by
  obtain ⟨log, hreads, -⟩ := o.reads_responds s
  exact (hreads.of_ended h).2

end Operation

/-- The source after operations in a row. One that fails does not stop the
others. -/
def afterAll (ops : List Operation) (s : Source) : Source :=
  ops.foldl (fun s o => o.after s) s

theorem afterAll_of_ended (ops : List Operation) (h : s.lookahead = .ended) :
    s.afterAll ops = s := by
  induction ops with
  | nil => rfl
  | cons o ops ih =>
    change (o.after s).afterAll ops = s
    rw [o.after_of_ended h]
    exact ih

/-- Operations in a row use up the items: each takes its own off the front of
those that are to come, and answers to them. An iteration that is left off and
taken up again is a row of `take`s. -/
inductive Answered : Source → List Operation → List Item → Prop where
  | nil (s : Source) : Answered s [] []
  | cons {s : Source} {o : Operation} {ops : List Operation} {log past : List Item} :
      s.coming = log ++ (o.after s).coming → Responds s (o.after s) o log (o.answer s) →
      Answered (o.after s) ops past → Answered s (o :: ops) (log ++ past)

/-- **Any operations in a row preserve the invariant**, and each answers to
what it uses up. -/
theorem Reached.afterAll (h : Reached script asked past s) (ops : List Operation) :
    ∃ newly log, Reached script (asked ++ newly) (past ++ log) (s.afterAll ops) ∧
      Answered s ops log := by
  induction ops generalizing asked past s with
  | nil =>
    refine ⟨[], [], ?_, .nil s⟩
    rw [List.append_nil, List.append_nil]
    exact h
  | cons o ops ih =>
    obtain ⟨log, hreads, hresponds⟩ := o.reads_responds s
    obtain ⟨newly, hnext⟩ := h.reads hreads
    obtain ⟨newly', log', hlast, hanswered⟩ := ih hnext
    have hcoming : s.coming = log ++ (o.after s).coming := by
      have hitems := h.items_eq.symm.trans hnext.items_eq
      rw [List.append_assoc] at hitems
      exact List.append_cancel_left hitems
    rw [List.append_assoc, List.append_assoc] at hlast
    exact ⟨newly ++ newly', log ++ log', hlast, .cons hcoming hresponds hanswered⟩

/-- **Reading loses nothing, repeats nothing and keeps the order**, whatever
the source answers and in whatever order the operations come. Each answer is
requested once; the items it brings are used up in their order, each by one
operation, up to the first end, and at most one byte is requested beyond
them. The position is told by the bytes that were used up, so that neither a
failure nor a question changes it. Once the source has ended, nothing is to
come, it says so, and nothing changes any more. -/
theorem operations_lose_nothing (script : List Reply) (ops : List Operation) {s : Source}
    (hs : (ofReplies script).afterAll ops = s) :
    ∃ asked past, Reached script asked past s ∧ Answered (ofReplies script) ops past ∧
      items script = past ++ s.coming ∧
      (bytes past = [] → s.position = .start) ∧
      (∀ before b, bytes past = before ++ [b] → s.position.Follows before) ∧
      (s.lookahead = .ended → s.coming = [] ∧ Operation.atEnd.answer s = .ok (.truth true) ∧
        ∀ more, s.afterAll more = s) := by
  obtain ⟨asked, past, hreached, hanswered⟩ := (Reached.start script).afterAll ops
  rw [List.nil_append, List.nil_append, hs] at hreached
  refine ⟨asked, past, hreached, hanswered, hreached.items_eq, hreached.position_start, ?_, ?_⟩
  · intro before b
    exact hreached.position_follows
  · intro hl
    have hcoming : s.coming = [] := by rw [coming, hl]
    exact ⟨hcoming, Operation.answer_atEnd_of_ended hl, fun more => afterAll_of_ended more hl⟩

/-- A source of two lines, `+` and `]`, that fails in the middle of the
first, brings no bytes at the start of the second, and goes on behind its
end. -/
def brokenLines : List Reply :=
  [.bytes [43, 99], .failure "no data", .bytes [10], .foreign "str", .bytes [93], .bytes [],
    .bytes [45]]

/-- Both failures are met, one of them behind a byte and one by a question,
and the parser still finds the bracket on the second line; then the source
has ended. -/
theorem operations_lose_nothing_brokenLines :
    (ofReplies brokenLines).afterAll [.atEnd, .take 2, .next, .atEnd, .parse, .drain] =
      ⟨[.bytes [45]], .ended, ⟨2, 2, 1⟩, false⟩ ∧
    Answered (ofReplies brokenLines) [.atEnd, .take 2, .next, .atEnd, .parse, .drain]
      [.ok 43, .error (.failed "no data"), .ok 10, .error (.notBytes "str"), .ok 93] ∧
    Position.Follows [43, 10] ⟨2, 2, 1⟩ ∧
    ∀ more, (Source.mk [.bytes [45]] .ended ⟨2, 2, 1⟩ false).afterAll more =
      ⟨[.bytes [45]], .ended, ⟨2, 2, 1⟩, false⟩ := by
  have hs : (ofReplies brokenLines).afterAll [.atEnd, .take 2, .next, .atEnd, .parse, .drain] =
      ⟨[.bytes [45]], .ended, ⟨2, 2, 1⟩, false⟩ := rfl
  obtain ⟨asked, past, -, hanswered, hitems, -, hfollows, hend⟩ :=
    operations_lose_nothing brokenLines [.atEnd, .take 2, .next, .atEnd, .parse, .drain] hs
  obtain ⟨hnone, -, hstays⟩ := hend rfl
  rw [hnone, List.append_nil] at hitems
  subst hitems
  exact ⟨hs, hanswered, hfollows [43, 10] 93 rfl, hstays⟩

end Source

end Brainfuck
