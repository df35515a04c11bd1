import Brainfuck.Proofs.Parse.Unmatched
/-!
# What is read of a source

A source does two things only: it requests a byte, and it consumes the byte
that is ready. `Source.Reads` is any number of these in a row, with the items
that are used up on the way: the bytes consumed and the failures met. Each
operation on a source is such a row, and what it answers is told by the items
it has used up: `turn_cases` is one turn of a loop over the source,
`take_reads` the loop that gathers the commands, and `feedTo_reads` the loop
of the parser. No loop ends before its time: `drain_reads` and `parse_reads`
get to the end, or to something that cannot be used.
-/

namespace Brainfuck

/-- What a request brings: a byte, or a failure. -/
abbrev Item := Except ReadError UInt8

/-- What the answer to a request brings, unless it is the end. -/
def Reply.item? : Reply → Option Item
  | .bytes [] => none
  | .bytes (b :: _) => some (.ok b)
  | .failure reason => some (.error (.failed reason))
  | .foreign typeName => some (.error (.notBytes typeName))

namespace Source

variable {s s' s'' : Source} {log log' : List Item}

/-! ## Requests -/

/-- **What a request can be**: nothing at all, the end, a byte, or a
failure. -/
theorem request_cases (s : Source) :
    (s.lookahead ≠ .unread ∧ request s = .ok () s) ∨
    (s.lookahead = .unread ∧ s.replies = [] ∧
      request s = .ok () { s with lookahead := .ended }) ∨
    ∃ reply rest, s.lookahead = .unread ∧ s.replies = reply :: rest ∧
      request s =
        match reply.item? with
        | none => .ok () { s with replies := rest, lookahead := .ended }
        | some (.ok b) => .ok () { s with replies := rest, lookahead := .ready b }
        | some (.error e) => .error e { s with replies := rest } := by
  obtain ⟨replies, lookahead, position, afterNewline⟩ := s
  cases lookahead with
  | ready b => exact Or.inl ⟨fun h => Lookahead.noConfusion h, rfl⟩
  | ended => exact Or.inl ⟨fun h => Lookahead.noConfusion h, rfl⟩
  | unread =>
    cases replies with
    | nil => exact Or.inr (Or.inl ⟨rfl, rfl, rfl⟩)
    | cons reply rest =>
      refine Or.inr (Or.inr ⟨reply, rest, rfl, rfl, ?_⟩)
      rcases reply with ⟨_ | ⟨b, data⟩⟩ | reason | typeName <;> rfl

/-- A request that succeeds leaves a byte ready, or the end, and does not
move. -/
theorem request_ok (h : request s = .ok () s') :
    (s'.lookahead = .ended ∨ ∃ b, s'.lookahead = .ready b) ∧ s'.position = s.position ∧
      s'.afterNewline = s.afterNewline ∧ s'.remaining ≤ s.remaining := by
  rcases request_cases s with ⟨hl, hr⟩ | ⟨hl, -, hr⟩ | ⟨reply, rest, hl, hrep, hr⟩
  · rw [hr] at h
    cases h
    refine ⟨?_, rfl, rfl, Nat.le_refl _⟩
    cases hs : s.lookahead with
    | unread => exact absurd hs hl
    | ready b => exact Or.inr ⟨b, rfl⟩
    | ended => exact Or.inl rfl
  · rw [hr] at h
    cases h
    refine ⟨Or.inl rfl, rfl, rfl, ?_⟩
    simp [remaining, hl]
  · rw [hr] at h
    rcases hi : reply.item? with _ | e | b
    · rw [hi] at h
      cases h
      refine ⟨Or.inl rfl, rfl, rfl, ?_⟩
      simp [remaining, hl, hrep]
    · rw [hi] at h
      cases h
    · rw [hi] at h
      cases h
      refine ⟨Or.inr ⟨b, rfl⟩, rfl, rfl, ?_⟩
      simp [remaining, hl, hrep]

/-- A request that fails uses up its answer, and does nothing else. -/
theorem request_error {e : ReadError} (h : request s = .error e s') :
    ∃ reply, s.lookahead = .unread ∧ reply.item? = some (.error e) ∧
      s.replies = reply :: s'.replies ∧ s' = { s with replies := s'.replies } := by
  rcases request_cases s with ⟨-, hr⟩ | ⟨-, -, hr⟩ | ⟨reply, rest, hl, hrep, hr⟩
  · rw [hr] at h
    cases h
  · rw [hr] at h
    cases h
  · rw [hr] at h
    rcases hi : reply.item? with _ | e' | b
    · rw [hi] at h
      cases h
    · rw [hi] at h
      cases h
      exact ⟨reply, hl, hi, hrep, rfl⟩
    · rw [hi] at h
      cases h

/-- A request where a byte is ready, or where the source has ended, does
nothing. -/
theorem request_of_ne_unread (h : s.lookahead ≠ .unread) : request s = .ok () s := by
  rcases request_cases s with ⟨-, hr⟩ | ⟨hl, -⟩ | ⟨reply, rest, hl, -⟩
  · exact hr
  · exact absurd hl h
  · exact absurd hl h

/-! ## Rows of requests and bytes -/

/-- `s.Reads log s'`: requests and the consumption of bytes lead from one
source to the other, and use up the items, in this order. -/
inductive Reads : Source → List Item → Source → Prop where
  | refl (s : Source) : Reads s [] s
  | request {s s' s'' : Source} {log : List Item} :
      request s = .ok () s' → Reads s' log s'' → Reads s log s''
  | failure {s s' s'' : Source} {e : ReadError} {log : List Item} :
      Source.request s = .error e s' → Reads s' log s'' → Reads s (.error e :: log) s''
  | consume {s s' : Source} {b : UInt8} {log : List Item} :
      s.lookahead = .ready b → Reads (s.consume b) log s' → Reads s (.ok b :: log) s'

namespace Reads

/-- Rows follow one another. -/
theorem trans (h : s.Reads log s') (h' : s'.Reads log' s'') : s.Reads (log ++ log') s'' := by
  induction h with
  | refl => exact h'
  | request hr _ ih => exact .request hr (ih h')
  | failure hr _ ih => exact .failure hr (ih h')
  | consume hl _ ih => exact .consume hl (ih h')

/-- One request. -/
theorem of_request (h : Source.request s = .ok () s') : s.Reads [] s' :=
  .request h (.refl s')

theorem of_failure {e : ReadError} (h : Source.request s = .error e s') :
    s.Reads [.error e] s' :=
  .failure h (.refl s')

/-- There are no more items than remain. -/
theorem length_add_remaining_le (h : s.Reads log s') : log.length + s'.remaining ≤ s.remaining := by
  induction h with
  | refl => simp
  | request hr _ ih =>
    have hle := (request_ok hr).2.2.2
    omega
  | @failure s s' s'' e log hr _ ih =>
    obtain ⟨reply, hl, -, hrep, hs'⟩ := request_error hr
    have hlen : s'.remaining + 1 = s.remaining := by
      rw [hs']
      simp [remaining, hl, hrep]
    simp only [List.length_cons]
    omega
  | @consume s s' b log hl _ ih =>
    have hlen : (s.consume b).remaining + 1 = s.remaining := by
      simp [remaining, Source.consume, hl]
    simp only [List.length_cons]
    omega

/-- Where a source has ended, it stays as it is. -/
theorem of_ended (h : s.Reads log s') (hl : s.lookahead = .ended) : log = [] ∧ s' = s := by
  induction h with
  | refl => exact ⟨rfl, rfl⟩
  | request hr _ ih =>
    rw [request_of_ne_unread fun hu => Lookahead.noConfusion (hl.symm.trans hu)] at hr
    cases hr
    exact ih hl
  | failure hr _ ih =>
    obtain ⟨-, hu, -⟩ := request_error hr
    exact Lookahead.noConfusion (hl.symm.trans hu)
  | consume hb _ ih => exact Lookahead.noConfusion (hl.symm.trans hb)

end Reads

/-! ## A turn -/

theorem atEnd_of_request (h : request s = .ok () s') :
    atEnd s = .ok (s'.lookahead = .ended) s' := by
  simp only [atEnd, bind, EStateM.bind, h]
  rfl

theorem atEnd_of_failure {e : ReadError} (h : request s = .error e s') :
    atEnd s = .error e s' := by
  simp only [atEnd, bind, EStateM.bind, h]

theorem next_of_ready {b : UInt8} (h : request s = .ok () s') (hb : s'.lookahead = .ready b) :
    next s = .ok (Symbol.ofByte? b) (s'.consume b) := by
  have hget : (get : EStateM ReadError Source Source) s' = .ok s' s' := rfl
  simp only [next, bind, EStateM.bind, h, hget, hb]
  rfl

theorem next_of_ended (h : request s = .ok () s') (hb : s'.lookahead = .ended) :
    next s = .ok none s' := by
  have hget : (get : EStateM ReadError Source Source) s' = .ok s' s' := rfl
  simp only [next, bind, EStateM.bind, h, hget, hb]
  rfl

theorem next_of_failure {e : ReadError} (h : request s = .error e s') :
    next s = .error e s' := by
  simp only [next, bind, EStateM.bind, h]

/-- **One turn of a loop over a source**: its request fails, it finds the
end, or it takes the byte that the request has brought. -/
theorem turn_cases (s : Source) :
    (∃ e s', s.Reads [.error e] s' ∧ atEnd s = .error e s') ∨
    (∃ s', s.Reads [] s' ∧ s'.lookahead = .ended ∧ atEnd s = .ok true s') ∨
    ∃ b s', s.Reads [.ok b] (s'.consume b) ∧ s'.position = s.position ∧
      s'.afterNewline = s.afterNewline ∧ atEnd s = .ok false s' ∧
      next s' = .ok (Symbol.ofByte? b) (s'.consume b) := by
  rcases hr : request s with ⟨_, s'⟩ | ⟨e, s'⟩
  · obtain ⟨hl | ⟨b, hl⟩, hpos, hnl, -⟩ := request_ok hr
    · have hend := atEnd_of_request hr
      rw [hl] at hend
      exact Or.inr (Or.inl ⟨s', .of_request hr, hl, hend⟩)
    · have hend := atEnd_of_request hr
      rw [hl] at hend
      have hagain : request s' = .ok () s' :=
        request_of_ne_unread fun h => Lookahead.noConfusion (hl.symm.trans h)
      have hreads : s.Reads [.ok b] (s'.consume b) := .request hr (.consume hl (.refl _))
      exact Or.inr (Or.inr ⟨b, s', hreads, hpos, hnl, hend, next_of_ready hagain hl⟩)
  · exact Or.inl ⟨e, s', .of_failure hr, atEnd_of_failure hr⟩

/-- Asking whether a source has ended uses up nothing but a failure. -/
theorem atEnd_reads (s : Source) :
    (∃ (b : UInt8) (s' : Source), atEnd s = .ok false s' ∧ s.Reads [] s' ∧
      s'.lookahead = .ready b) ∨
    (∃ s', atEnd s = .ok true s' ∧ s.Reads [] s' ∧ s'.lookahead = .ended) ∨
    ∃ (e : ReadError) (s' : Source), atEnd s = .error e s' ∧ s.Reads [.error e] s' := by
  rcases hr : request s with ⟨_, s'⟩ | ⟨e, s'⟩
  · obtain ⟨hl | ⟨b, hl⟩, -⟩ := request_ok hr
    · have hend := atEnd_of_request hr
      rw [hl] at hend
      exact Or.inr (Or.inl ⟨s', hend, .of_request hr, hl⟩)
    · have hend := atEnd_of_request hr
      rw [hl] at hend
      exact Or.inl ⟨b, s', hend, .of_request hr, hl⟩
  · exact Or.inr (Or.inr ⟨e, s', atEnd_of_failure hr, .of_failure hr⟩)

/-- The next byte is used up, if the request for it brings one. -/
theorem next_reads (s : Source) :
    (∃ (b : UInt8) (s' : Source), next s = .ok (Symbol.ofByte? b) s' ∧ s.Reads [.ok b] s') ∨
    (∃ s', next s = .ok none s' ∧ s.Reads [] s' ∧ s'.lookahead = .ended) ∨
    ∃ (e : ReadError) (s' : Source), next s = .error e s' ∧ s.Reads [.error e] s' := by
  rcases hr : request s with ⟨_, s'⟩ | ⟨e, s'⟩
  · obtain ⟨hl | ⟨b, hl⟩, -⟩ := request_ok hr
    · exact Or.inr (Or.inl ⟨s', next_of_ended hr hl, .of_request hr, hl⟩)
    · have hreads : s.Reads [.ok b] (s'.consume b) := .request hr (.consume hl (.refl _))
      exact Or.inl ⟨b, s'.consume b, next_of_ready hr hl, hreads⟩
  · exact Or.inr (Or.inr ⟨e, s', next_of_failure hr, .of_failure hr⟩)

/-! ## Gathering commands -/

/-- **What the loop that gathers commands takes**: so many bytes, or as many
as there are before the end; or it fails before it has them. -/
theorem take_reads (n : Nat) (s : Source) :
    (∃ (data : List UInt8) (s' : Source), take n s = .ok (data.map Symbol.ofByte?) s' ∧
      s.Reads (data.map .ok) s' ∧
      (data.length = n ∨ data.length < n ∧ s'.lookahead = .ended)) ∨
    ∃ (data : List UInt8) (e : ReadError) (s' : Source), take n s = .error e s' ∧
      s.Reads (data.map .ok ++ [.error e]) s' ∧ data.length < n := by
  induction n generalizing s with
  | zero => exact Or.inl ⟨[], s, rfl, .refl s, Or.inl rfl⟩
  | succ n ih =>
    rcases turn_cases s with ⟨e, s₁, hreads, hend⟩ | ⟨s₁, hreads, hl, hend⟩ |
      ⟨b, s₁, hreads, -, -, hend, hnext⟩
    · refine Or.inr ⟨[], e, s₁, ?_, hreads, Nat.succ_pos n⟩
      simp only [take, bind, EStateM.bind, hend]
    · refine Or.inl ⟨[], s₁, ?_, hreads, Or.inr ⟨Nat.succ_pos n, hl⟩⟩
      simp only [take, bind, EStateM.bind, hend]
      rfl
    · rcases ih (s₁.consume b) with ⟨data, s', htake, hrest, hlen⟩ |
        ⟨data, e, s', htake, hrest, hlen⟩
      · refine Or.inl ⟨b :: data, s', ?_, hreads.trans hrest,
          hlen.imp (congrArg Nat.succ) (And.imp_left Nat.succ_lt_succ)⟩
        simp only [take, bind, EStateM.bind, hend, Bool.false_eq_true, if_false, hnext, htake]
        rfl
      · refine Or.inr ⟨b :: data, e, s', ?_, hreads.trans hrest, Nat.succ_lt_succ hlen⟩
        simp only [take, bind, EStateM.bind, hend, Bool.false_eq_true, if_false, hnext, htake]

/-- **Draining a source gets to its end**, or to a failure. -/
theorem drain_reads (s : Source) :
    (∃ (data : List UInt8) (s' : Source), drain s = .ok (data.map Symbol.ofByte?) s' ∧
      s.Reads (data.map .ok) s' ∧ s'.lookahead = .ended) ∨
    ∃ (data : List UInt8) (e : ReadError) (s' : Source), drain s = .error e s' ∧
      s.Reads (data.map .ok ++ [.error e]) s' := by
  have hdrain : drain s = take (s.remaining + 1) s := rfl
  rw [hdrain]
  rcases take_reads (s.remaining + 1) s with ⟨data, s', htake, hreads, hlen⟩ |
    ⟨data, e, s', htake, hreads, -⟩
  · -- one more turn than there are bytes: the last of them can only find the end
    have hle := hreads.length_add_remaining_le
    rw [List.length_map] at hle
    have hend : s'.lookahead = .ended := by
      rcases hlen with hlen | ⟨-, hl⟩
      · omega
      · exact hl
    exact Or.inl ⟨data, s', htake, hreads, hend⟩
  · exact Or.inr ⟨data, e, s', htake, hreads⟩

end Source

/-! ## Parsing -/

/-- A draft is fed the first byte, and then the others. -/
theorem Draft.feedAll_marks_cons (d : Draft) (position : Position) (afterNewline : Bool)
    (b : UInt8) (data : List UInt8) :
    d.feedAll (marks position afterNewline (b :: data)) =
      d.feed (position.next afterNewline) (Symbol.ofByte? b) >>= fun d =>
        d.feedAll (marks (position.next afterNewline) (b = 10) data) := by
  cases hb : Symbol.ofByte? b with
  | none =>
    simp only [marks, hb]
    rfl
  | some symbol =>
    simp only [marks, hb]
    rfl

namespace Source

variable {s s' : Source}

/-- A turn of the parser that takes a byte. -/
theorem feedTo_of_byte {b : UInt8} (d : Draft) (n : Nat) (hend : atEnd s = .ok false s')
    (hnext : next s' = .ok (Symbol.ofByte? b) (s'.consume b)) :
    feedTo d (n + 1) s =
      match d.feed (s'.position.next s'.afterNewline) (Symbol.ofByte? b) with
      | .ok d => feedTo d n (s'.consume b)
      | .error e => .error (.bracket e) (s'.consume b) := by
  have hfeed : feedTo d (n + 1) s =
      (checking (d.feed (s'.position.next s'.afterNewline) (Symbol.ofByte? b)) >>= fun d =>
        feedTo d n) (s'.consume b) := by
    simp only [feedTo, bind, EStateM.bind, reading, hend, Bool.false_eq_true, if_false, hnext]
    rfl
  rw [hfeed]
  cases d.feed (s'.position.next s'.afterNewline) (Symbol.ofByte? b) <;> rfl

/-- **What the loop of the parser takes**: so many bytes, or as many as there
are before the end, or all up to a bracket that it reports where it stands;
or it fails over a request. -/
theorem feedTo_reads (n : Nat) (d : Draft) (s : Source) :
    (∃ (data : List UInt8) (d' : Draft) (s' : Source), feedTo d n s = .ok d' s' ∧
      s.Reads (data.map .ok) s' ∧
      d.feedAll (marks s.position s.afterNewline data) = .ok d' ∧
      (data.length = n ∨ data.length < n ∧ s'.lookahead = .ended)) ∨
    (∃ (data : List UInt8) (s' : Source),
      feedTo d n s = .error (.bracket (.unmatchedEnd s'.position)) s' ∧
      s.Reads (data.map .ok) s' ∧
      d.feedAll (marks s.position s.afterNewline data) = .error (.unmatchedEnd s'.position)) ∨
    ∃ (data : List UInt8) (d' : Draft) (e : ReadError) (s' : Source),
      feedTo d n s = .error (.read e) s' ∧ s.Reads (data.map .ok ++ [.error e]) s' ∧
      d.feedAll (marks s.position s.afterNewline data) = .ok d' := by
  induction n generalizing d s with
  | zero => exact Or.inl ⟨[], d, s, rfl, .refl s, rfl, Or.inl rfl⟩
  | succ n ih =>
    rcases turn_cases s with ⟨e, s₁, hreads, hend⟩ | ⟨s₁, hreads, hl, hend⟩ |
      ⟨b, s₁, hreads, hpos, hnl, hend, hnext⟩
    · refine Or.inr (Or.inr ⟨[], d, e, s₁, ?_, hreads, rfl⟩)
      simp only [feedTo, bind, EStateM.bind, reading, hend]
    · refine Or.inl ⟨[], d, s₁, ?_, hreads, rfl, Or.inr ⟨Nat.succ_pos n, hl⟩⟩
      simp only [feedTo, bind, EStateM.bind, reading, hend]
      rfl
    · have hturn := feedTo_of_byte d n hend hnext
      have hmarks (data : List UInt8) := d.feedAll_marks_cons s.position s.afterNewline b data
      have hp : (s₁.consume b).position = s.position.next s.afterNewline := by
        rw [← hpos, ← hnl]
        rfl
      rw [hpos, hnl] at hturn
      cases hf : d.feed (s.position.next s.afterNewline) (Symbol.ofByte? b) with
      | error e =>
        obtain ⟨-, -, rfl⟩ := Draft.feed_error hf
        simp only [hf] at hturn hmarks
        rw [← hp] at hturn hmarks
        exact Or.inr (Or.inl ⟨[b], s₁.consume b, hturn, hreads, hmarks []⟩)
      | ok d' =>
        simp only [hf] at hturn hmarks
        have hrest := ih d' (s₁.consume b)
        rw [hp] at hrest
        rcases hrest with ⟨data, d'', s', hfeed, hrow, hall, hlen⟩ | ⟨data, s', hfeed, hrow, hall⟩ |
          ⟨data, d'', e, s', hfeed, hrow, hall⟩
        · exact Or.inl ⟨b :: data, d'', s', hturn.trans hfeed, hreads.trans hrow,
            (hmarks data).trans hall,
            hlen.imp (congrArg Nat.succ) (And.imp_left Nat.succ_lt_succ)⟩
        · exact Or.inr (Or.inl ⟨b :: data, s', hturn.trans hfeed, hreads.trans hrow,
            (hmarks data).trans hall⟩)
        · exact Or.inr (Or.inr ⟨b :: data, d'', e, s', hturn.trans hfeed, hreads.trans hrow,
            (hmarks data).trans hall⟩)

/-- What parsing makes of bytes behind some position. -/
def parsed (position : Position) (afterNewline : Bool) (data : List UInt8) :
    Except ParseError Program :=
  (({} : Draft).feedAll (marks position afterNewline data) >>= Draft.finish).mapError .bracket

/-- **Parsing gets to the end**, to a bracket that it reports where it
stands, or to a failure. -/
theorem parse_reads (s : Source) :
    (∃ (data : List UInt8) (p : Program) (s' : Source), parse s = .ok p s' ∧
      s.Reads (data.map .ok) s' ∧ parsed s.position s.afterNewline data = .ok p ∧
      s'.lookahead = .ended) ∨
    (∃ (data : List UInt8) (e : BracketError) (s' : Source), parse s = .error (.bracket e) s' ∧
      s.Reads (data.map .ok) s' ∧ parsed s.position s.afterNewline data = .error (.bracket e) ∧
      (s'.lookahead = .ended ∨ e = .unmatchedEnd s'.position)) ∨
    ∃ (data : List UInt8) (d : Draft) (e : ReadError) (s' : Source),
      parse s = .error (.read e) s' ∧ s.Reads (data.map .ok ++ [.error e]) s' ∧
      ({} : Draft).feedAll (marks s.position s.afterNewline data) = .ok d := by
  have hparse : parse s = (feedTo {} (s.remaining + 1) >>= fun d => checking d.finish) s := rfl
  simp only [bind, EStateM.bind] at hparse
  rcases feedTo_reads (s.remaining + 1) {} s with ⟨data, d, s', hfeed, hrow, hall, hlen⟩ |
    ⟨data, s', hfeed, hrow, hall⟩ | ⟨data, d, e, s', hfeed, hrow, hall⟩
  · have hle := hrow.length_add_remaining_le
    rw [List.length_map] at hle
    have hl : s'.lookahead = .ended := by
      rcases hlen with hlen | ⟨-, hl⟩
      · omega
      · exact hl
    have hparsed : parsed s.position s.afterNewline data = d.finish.mapError .bracket := by
      rw [parsed, hall]
      rfl
    simp only [hfeed] at hparse
    cases hf : d.finish with
    | ok p =>
      rw [hf] at hparse hparsed
      exact Or.inl ⟨data, p, s', hparse, hrow, hparsed, hl⟩
    | error e =>
      rw [hf] at hparse hparsed
      exact Or.inr (Or.inl ⟨data, e, s', hparse, hrow, hparsed, Or.inl hl⟩)
  · simp only [hfeed] at hparse
    have hparsed : parsed s.position s.afterNewline data =
        .error (.bracket (.unmatchedEnd s'.position)) := by
      rw [parsed, hall]
      rfl
    exact Or.inr (Or.inl ⟨data, _, s', hparse, hrow, hparsed, Or.inr rfl⟩)
  · simp only [hfeed] at hparse
    exact Or.inr (Or.inr ⟨data, d, e, s', hparse, hrow, hall⟩)

end Source

end Brainfuck
