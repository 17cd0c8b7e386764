import Lexis.Proofs.Piecewise
import Lexis.Proofs.Stream

/-!
# Displaced lexers

The rules for tokens look at the text ahead only: that a text ends is seen by what is ahead, and a
fault is placed by the number of characters read of its token. So a lexer goes on as another one
does that has the same text ahead, be there more text behind it or less; all offsets are moved
along by the difference, and nothing else changes (`Lexer.Displaced`). Behind a token nothing is
pending, so a lexer that stands there is a new lexer in front of the rest of the text, displaced.

Results:
1. `Cursor.Displaced.next`, `Cursor.Displaced.run`: a step and a run of a displaced cursor.
2. `Lexer.Displaced.perform`, `Lexer.Displaced.session`: an operation of a displaced lexer, and any
   number of them.
3. `Lexer.displaced_of_draw`: behind a token a lexer is a displaced new one.
4. `lexer_restarts_behind_token`: what is answered behind a token, and the whole reading.
-/

namespace Lexis

/-! ## Cursors -/

/-- `c.Displaced n d`: the cursor `d` has the same text pending and ahead as `c`, `n` characters
further along. -/
structure Cursor.Displaced (n : Nat) (c d : Cursor) : Prop where
  start : d.start = n + c.start
  pending : d.pending = c.pending
  ahead : d.ahead = c.ahead

/-- The second step gives what the first one gives, `n` characters further along. -/
inductive Step.Displaced (n : Nat) : Step → Step → Prop
  | token {t : Token} {accepted : Option Fault} {c d : Cursor} : c.Displaced n d →
      Step.Displaced n (.token t accepted c) (.token (t.shift n) (accepted.map (Fault.shift n)) d)
  | refused {fault : Fault} {c d : Cursor} : c.Displaced n d →
      Step.Displaced n (.refused fault c) (.refused (fault.shift n) d)
  | finished {c d : Cursor} : c.Displaced n d → Step.Displaced n (.finished c) (.finished d)

variable {n : Nat} {c d : Cursor}

/-- Where there may be no step, there is one in both cases or in neither, so what stands in for it
may be displaced too. -/
theorem Step.Displaced.getD {found found' : Option Step} {other other' : Step}
    (h : Option.Rel (Step.Displaced n) found found') (h' : other.Displaced n other') :
    (found.getD other).Displaced n (found'.getD other') := by
  cases h with
  | some step => exact step
  | none => exact h'

namespace Cursor.Displaced

theorem index (h : c.Displaced n d) : d.index = n + c.index := by
  rw [Cursor.index, Cursor.index, h.start, h.pending, Nat.add_assoc]

theorem advance (h : c.Displaced n d) (k : Nat) : (c.advance k).Displaced n (d.advance k) := by
  refine ⟨h.start, ?_, ?_⟩
  · show d.pending ++ d.ahead.take k = c.pending ++ c.ahead.take k
    rw [h.pending, h.ahead]
  · rw [ahead_advance, ahead_advance, h.ahead]

theorem skip (h : c.Displaced n d) : c.skip.Displaced n d.skip :=
  ⟨h.index, rfl, h.ahead⟩

theorem skipWhitespace (h : c.Displaced n d) (whitespace : Text) :
    (c.skipWhitespace whitespace).Displaced n (d.skipWhitespace whitespace) := by
  unfold Cursor.skipWhitespace
  rw [h.ahead]
  split
  · exact h
  · exact (h.advance _).skip

theorem token (h : c.Displaced n d) (kind : Kind) : d.token kind = (c.token kind).shift n := by
  rw [Cursor.token, Cursor.token, Token.shift, h.pending, h.start, Int.natCast_add]

theorem scan? (h : c.Displaced n d) (mode : Mode) :
    Option.Rel (Step.Displaced n) (c.scan? mode) (d.scan? mode) := by
  unfold Cursor.scan?
  rw [h.ahead, h.index]
  split
  · exact .none
  next x t _ =>
  split
  · next kind further flaw _ =>
    have read := h.advance (further + 1)
    have placed : flaw.map (Flaw.place (n + c.index)) =
        (flaw.map (Flaw.place c.index)).map (Fault.shift n) := by
      cases flaw <;> simp
    dsimp only
    rw [read.token, placed]
    exact .some (.token read.skip)
  · next flaw _ =>
    rw [← Flaw.shift_place]
    exact .some (.refused (h.advance flaw.depth))

/-- A displaced cursor takes the same step. -/
theorem next (h : c.Displaced n d) (o : Options) : (c.next o).Displaced n (d.next o) := by
  have skipped := h.skipWhitespace o.whitespace
  exact Step.Displaced.getD (skipped.scan? o.mode) (.finished skipped)

/-- So it does in a whole run. -/
theorem run (h : c.Displaced n d) (o : Options) :
    (d.run o).reading = (c.run o).reading.shift n ∧ (c.run o).after.Displaced n (d.run o).after := by
  fun_induction Cursor.run o c generalizing d with
  | case1 c token accepted c' next ih =>
    have step := h.next o
    rw [next] at step
    rw [run_eq_next o d]
    generalize d.next o = s at step ⊢
    cases step with
    | token behind =>
      obtain ⟨reading, after⟩ := ih behind
      refine ⟨?_, after⟩
      simp only [Run.reading_cons, Reading.shift_cons, reading]
  | case2 c fault c' next | case3 c c' next =>
    have step := h.next o
    rw [next] at step
    rw [run_eq_next o d]
    generalize d.next o = s at step ⊢
    cases step with
    | _ behind => exact ⟨rfl, behind⟩

end Cursor.Displaced

/-! ## Lexers -/

namespace Lexer

/-- The answer about the same text moved `n` characters along. -/
def Answer.shift (n : Nat) : Answer → Answer
  | .token t => .token (t.shift n)
  | .refused fault => .refused (fault.shift n)
  | .finished => .finished

/-- The response about the same text moved `n` characters along. -/
def Response.shift (n : Nat) : Response → Response
  | .seen found => .seen found
  | .one answer => .one (answer.shift n)
  | .all (.ok tokens) => .all (.ok (tokens.map (Token.shift n)))
  | .all (.error fault) => .all (.error (fault.shift n))
  | .done => .done

/-- `l.Displaced n noted m`: the lexer `m` stands as `l` does, `n` characters further along, and has
accepted the faults `noted` before those that `l` has accepted. -/
structure Displaced (n : Nat) (noted : List Fault) (l m : Lexer) : Prop where
  options : m.options = l.options
  cursor : l.cursor.Displaced n m.cursor
  accepted : m.accepted = noted ++ l.accepted.map (Fault.shift n)
  streaming : m.streaming = l.streaming

namespace Displaced

variable {n : Nat} {noted : List Fault} {l m : Lexer}

theorem take (h : l.Displaced n noted m) {step step' : Step} (same : step.Displaced n step') :
    (m.take step').1 = (l.take step).1.shift n ∧
      (l.take step).2.Displaced n noted (m.take step').2 := by
  cases same with
  | @token t accepted c d behind =>
    refine ⟨rfl, h.options, behind, ?_, h.streaming⟩
    show m.accepted ++ (accepted.map (Fault.shift n)).toList =
      noted ++ (l.accepted ++ accepted.toList).map (Fault.shift n)
    rw [h.accepted, List.append_assoc, List.map_append]
    cases accepted <;> rfl
  | refused behind | finished behind => exact ⟨rfl, h.options, behind, h.accepted, h.streaming⟩

theorem peek (h : l.Displaced n noted m) (sets : List Text) : m.peek sets = l.peek sets := by
  rw [Lexer.peek, Lexer.peek, h.cursor.ahead]

theorem accept (h : l.Displaced n noted m) (sets : List Text) :
    (m.accept sets).1 = (l.accept sets).1 ∧
      (l.accept sets).2.Displaced n noted (m.accept sets).2 := by
  unfold Lexer.accept
  rw [h.peek]
  split
  · exact ⟨rfl, h.options, h.cursor.advance _, h.accepted, h.streaming⟩
  · exact ⟨rfl, h⟩

theorem scan (h : l.Displaced n noted m) :
    m.scan.1 = l.scan.1.shift n ∧ l.scan.2.Displaced n noted m.scan.2 := by
  refine h.take ?_
  rw [h.options]
  exact Step.Displaced.getD (h.cursor.scan? l.options.mode) (.finished h.cursor)

theorem next (h : l.Displaced n noted m) :
    m.next.1 = l.next.1.shift n ∧ l.next.2.Displaced n noted m.next.2 := by
  have same := h.cursor.next l.options
  unfold Lexer.next
  rw [h.streaming, h.options]
  split
  · generalize l.cursor.next l.options = step at same ⊢
    generalize m.cursor.next l.options = step' at same ⊢
    obtain ⟨answer, behind⟩ := h.take same
    cases same with
    | token => exact ⟨answer, behind⟩
    | refused | finished =>
      exact ⟨answer, behind.options, behind.cursor, behind.accepted, rfl⟩
  · exact ⟨rfl, h⟩

theorem lex (h : l.Displaced n noted m) :
    Response.all m.lex.1 = (Response.all l.lex.1).shift n ∧
      l.lex.2.Displaced n noted m.lex.2 := by
  obtain ⟨reading, after⟩ := h.cursor.run l.options
  have tokens := congrArg Reading.tokens reading
  have accepted := congrArg Reading.accepted reading
  have refusal := congrArg Reading.refusal reading
  dsimp only [Run.reading, Reading.shift] at tokens accepted refusal
  unfold Lexer.lex
  rw [h.options]
  dsimp only
  rw [refusal, tokens]
  refine ⟨?_, rfl, after, ?_, h.streaming⟩
  · cases (l.cursor.run l.options).refusal <;> rfl
  · show m.accepted ++ _ = noted ++ List.map _ (l.accepted ++ _)
    rw [h.accepted, accepted, List.append_assoc, List.map_append]

/-- A displaced lexer gives displaced responses, and stays displaced. -/
theorem perform (h : l.Displaced n noted m) (op : Operation) :
    (m.perform op).1 = (l.perform op).1.shift n ∧
      (l.perform op).2.Displaced n noted (m.perform op).2 := by
  cases op with
  | peek sets => exact ⟨congrArg Response.seen (h.peek sets), h⟩
  | accept sets =>
    obtain ⟨seen, behind⟩ := h.accept sets
    exact ⟨congrArg Response.seen seen, behind⟩
  | scan =>
    obtain ⟨answer, behind⟩ := h.scan
    exact ⟨congrArg Response.one answer, behind⟩
  | next =>
    obtain ⟨answer, behind⟩ := h.next
    exact ⟨congrArg Response.one answer, behind⟩
  | restart => exact ⟨rfl, h.options, h.cursor, h.accepted, rfl⟩
  | lex => exact h.lex

/-- So it does in a whole session. -/
theorem session (h : l.Displaced n noted m) (ops : List Operation) :
    (Lexer.session ops m).1 = (Lexer.session ops l).1.map (Response.shift n) ∧
      (Lexer.session ops l).2.Displaced n noted (Lexer.session ops m).2 := by
  induction ops generalizing l m with
  | nil => exact ⟨rfl, h⟩
  | cons op ops ih =>
    obtain ⟨response, behind⟩ := h.perform op
    obtain ⟨responses, last⟩ := ih behind
    exact ⟨congrArg₂ List.cons response responses, last⟩

end Displaced

/-! ## Behind a token -/

variable {o : Options} {filename source : Text} {l : Lexer} {k : Nat} {tokens : List Token}

/-- The tokens that have been drawn and what is still to be read make up the reading. -/
theorem reading_draw (drawn : List Token) (h : (draw k l).1 = tokens.map .token) :
    (draw k l).2.reading (drawn ++ tokens) = l.reading drawn := by
  induction k generalizing l drawn tokens with
  | zero =>
    obtain rfl := List.map_eq_nil_iff.mp h.symm
    exact congrArg l.reading (List.append_nil drawn)
  | succ k ih =>
    obtain ⟨token, rest, rfl, first, behind⟩ := List.map_eq_cons_iff.mp h.symm
    have clean : l.next.1.fault? = none := by rw [← first, Answer.fault?]
    have step := reading_next drawn clean
    rw [← first, Answer.tokens] at step
    have later := ih (drawn ++ [token]) behind.symm
    rw [List.append_assoc, List.singleton_append] at later
    exact later.trans step

theorem streaming_draw (streaming : l.streaming = true) (h : (draw k l).1 = tokens.map .token) :
    (draw k l).2.streaming = true := by
  induction k generalizing l tokens with
  | zero => exact streaming
  | succ k ih =>
    obtain ⟨token, rest, accepted, m, rfl, _, _, streaming', behind, drawn⟩ :=
      exists_of_draw_succ streaming h
    rw [drawn]
    exact ih streaming' behind

/-- Behind a token a lexer is a displaced new one in front of the rest of the text. -/
theorem displaced_of_draw (h : (draw k (new o filename source)).1 = tokens.map .token) {e : Nat}
    (ends : tokens.getLast?.map Token.stop = some (e : Int)) :
    (new o filename (source.drop e)).Displaced e (draw k (new o filename source)).2.accepted
      (draw k (new o filename source)).2 := by
  have drawn := (Drawn.of_new o filename source).draw k
  have streaming := streaming_draw rfl h
  have pending := drawn.pending streaming
  have start := (start_draw rfl rfl h).1
  rw [ends, Option.getD_some, Int.ofNat_inj] at start
  have index : (draw k (new o filename source)).2.cursor.index = e := by
    rw [Cursor.index, pending, List.length_nil, Nat.add_zero, start]
  refine ⟨drawn.options, ⟨start, pending, ?_⟩, (List.append_nil _).symm, streaming⟩
  rw [← Cursor.drop_index_source, drawn.source, index]
  rfl

end Lexer

/-- The complaint about the same text moved `n` characters along. -/
def Complaint.shift (n : Nat) : Complaint → Complaint
  | .unterminated literal opened => .unterminated literal (n + opened)
  | complaint => complaint

theorem Fault.complaint_shift (n : Nat) (fault : Fault) :
    (fault.shift n).complaint = fault.complaint.shift n := by
  obtain ⟨cause, start, offset⟩ := fault
  cases cause with
  | unterminated literal => simp [Fault.shift, Fault.complaint, Complaint.shift]
  | _ => rfl

/-- A lexer restarts behind every token. Let some tokens be drawn from a lexer, the last of which
ends at `e`.

Whatever the lexer is asked for from then on, it responds as a new lexer in front of the source from
`e` on does, with all offsets moved along by `e`, those of what is refused included; and of the
diagnostics, the location and the line of the source apart, those from then on are the diagnostics
of the new lexer, moved likewise. So the source is read as the tokens, then the source from `e` on,
moved along by `e`. -/
theorem lexer_restarts_behind_token (o : Options) (filename source : Text) (k : Nat)
    (tokens : List Token) (e : Nat) (l : Lexer)
    (drawn : (Lexer.new o filename source).draw k = (tokens.map .token, l))
    (ends : tokens.getLast?.map Token.stop = some (e : Int)) :
    (∀ ops : List Lexer.Operation,
      (Lexer.session ops l).1 =
        (Lexer.session ops (Lexer.new o filename (source.drop e))).1.map
          (Lexer.Response.shift e) ∧
      (Lexer.session ops l).2.diagnostics.map (fun r => (r.complaint, r.offset)) =
        l.diagnostics.map (fun r => (r.complaint, r.offset)) ++
          (Lexer.session ops (Lexer.new o filename (source.drop e))).2.diagnostics.map
            fun r => (r.complaint.shift e, (e : Int) + r.offset)) ∧
    (lex o source).reading =
      Reading.append ⟨tokens, l.accepted, none⟩ ((lex o (source.drop e)).reading.shift e) := by
  have answers := congrArg Prod.fst drawn
  have displaced := Lexer.displaced_of_draw answers ends
  have whole := Lexer.reading_draw [] answers
  rw [drawn] at displaced whole
  dsimp only at displaced whole
  refine ⟨fun ops => ?_, ?_⟩
  · obtain ⟨responses, last⟩ := displaced.session ops
    refine ⟨responses, ?_⟩
    simp only [Lexer.diagnostics, last.accepted, List.map_append, List.map_map]
    refine congrArg₂ List.append rfl (List.map_congr_left fun fault _ => ?_)
    show ((fault.shift e).complaint, ((fault.shift e).offset : Int)) =
      (fault.complaint.shift e, (e : Int) + (fault.offset : Int))
    rw [Fault.complaint_shift, Fault.shift, Int.natCast_add]
  · have rest : (l.cursor.run o).reading = (lex o (source.drop e)).reading.shift e :=
      (displaced.cursor.run o).1
    rw [Lexer.reading_new, List.nil_append, Lexer.reading, displaced.options] at whole
    rw [lex_reading, ← whole, ← rest]
    rfl

/-- Behind a literal that is cut short, and before one that is refused. -/
theorem lexer_restarts_behind_token_malformed :
    (Lexer.session [.next, .lex]
        ((Lexer.new (Options.standard.inMode .lenient) [] "'ab \"q".toList).draw 1).2).1 =
      [.one (.token ⟨.identifier, ['b'], 2⟩),
        .all (.ok [⟨.string, ['"'], 4⟩, ⟨.identifier, ['q'], 5⟩])] ∧
    (Lexer.session [.next, .lex]
        ((Lexer.new (Options.standard.inMode .lenient) [] "'ab \"q".toList).draw 1).2
      ).2.diagnostics.map (fun r => (r.complaint, r.offset)) =
      [(.unterminated "character".toList 0, 2), (.unterminated "string".toList 4, 6)] ∧
    (Lexer.session [.next, .next]
        ((Lexer.new .standard [] "x 'ab' y".toList).draw 1).2).1 =
      [.one (.refused ⟨.unterminated .character, 2, 4⟩), .one .finished] := by
  have lenient := lexer_restarts_behind_token (Options.standard.inMode .lenient) []
    "'ab \"q".toList 1 [⟨.character, "'a".toList, 0⟩] 2 _
    (Prod.ext (by decide +kernel) rfl) (by decide)
  have strict := lexer_restarts_behind_token .standard [] "x 'ab' y".toList 1
    [⟨.identifier, ['x'], 0⟩] 1 _ (Prod.ext (by decide +kernel) rfl) (by decide)
  obtain ⟨responses, diagnostics⟩ := lenient.1 [.next, .lex]
  exact ⟨responses.trans (by decide +kernel), diagnostics.trans (by decide +kernel),
    (strict.1 [.next, .next]).1.trans (by decide +kernel)⟩

end Lexis
