import Lexis.Proofs.Lookahead
import Lexis.Proofs.Reading

/-!
# Tokens one at a time

What a lexer answers when it is asked for its tokens one after the other (`Lexer.draw`). With
nothing pending, a step that gives out a token has read some whitespace and a token of the text
ahead, no more (`Cursor.Reads`), and stands right behind the token afterwards. Since a token is
settled two characters behind it, two lexers in front of texts that are alike so far give out the
same tokens and keep the same faults.

Results:
1. `Cursor.exists_reads`, `Cursor.Reads.next`: what a step that gives out a token has read, and what
   it gives.
2. `Cursor.Alike.next`, `Lexer.draw_of_alike`: a step, and any number of them, before texts that are
   alike.
3. `Lexer.Drawn.draw`: what any number of draws leaves as it is.
4. `two_characters_of_lookahead`: tokens do not change with what is more than two characters behind.
-/

namespace Lexis

/-! ## A step that gives out a token -/

namespace Cursor

/-- `c.Reads o white x t kind further flaw`: the text ahead is the whitespace, then `x`, then `t`,
and at `x` begins a token of the kind, with `further` characters behind its first. -/
structure Reads (o : Options) (c : Cursor) (white : Text) (x : Char) (t : Text) (kind : Kind)
    (further : Nat) (flaw : Option Flaw) : Prop where
  ahead : c.ahead = white ++ x :: t
  skipped : ∀ y ∈ white, y ∈ o.whitespace
  black : x ∉ o.whitespace
  scan : Scan.ofText o.mode x t = .token kind further flaw

variable {o : Options} {c c' d : Cursor} {token : Token} {accepted : Option Fault}
variable {white t : Text} {x : Char} {kind : Kind} {further e : Nat} {flaw : Option Flaw}

theorem exists_reads (pending : c.pending = []) (h : c.next o = .token token accepted d) :
    ∃ white x t kind further flaw, c.Reads o white x t kind further flaw := by
  obtain ⟨e, _, _, ahead, next⟩ := next_of_pending_nil o pending
  have parts := List.takeWhile_append_dropWhile (p := (· ∈ o.whitespace)) (l := c.ahead)
  rw [next] at h
  cases text : e.ahead with
  | nil =>
    rw [text] at h
    cases h
  | cons x t =>
    rw [text] at h
    cases scan : Scan.ofText o.mode x t with
    | refused flaw =>
      simp only [scan] at h
      cases h
    | token kind further flaw =>
      have black : x ∉ o.whitespace := Options.not_mem_of_dropWhile (ahead.symm.trans text)
      refine ⟨c.ahead.takeWhile (· ∈ o.whitespace), x, t, kind, further, flaw, ?_, ?_, black, scan⟩
      · rw [← text, ahead, parts]
      · intro y mem
        simpa using List.mem_takeWhile_imp mem

/-- The step gives out the token with its fault, and stands behind it with nothing pending. -/
theorem Reads.next (h : c.Reads o white x t kind further flaw) (pending : c.pending = []) :
    ∃ d, c.next o =
        .token ⟨kind, (x :: t).take (further + 1), (c.start + white.length : Nat)⟩
          (flaw.map (Flaw.place (c.start + white.length))) d ∧
      d.pending = [] ∧ d.start = c.start + white.length + (further + 1) ∧
      d.ahead = t.drop further := by
  obtain ⟨e, pending', start, ahead, next⟩ := next_of_pending_nil o pending
  have white' : ∀ y ∈ white, decide (y ∈ o.whitespace) = true :=
    fun y mem => decide_eq_true (h.skipped y mem)
  have run : (white ++ x :: t).takeWhile (· ∈ o.whitespace) = white := by
    rw [List.takeWhile_append_of_pos white']
    simp [h.black]
  have rest : (white ++ x :: t).dropWhile (· ∈ o.whitespace) = x :: t := by
    rw [List.dropWhile_append_of_pos white']
    simp [h.black]
  rw [h.ahead, run] at start
  rw [h.ahead, rest] at ahead
  have fits : further + 1 ≤ e.ahead.length := by
    rw [ahead]
    exact Nat.succ_le_succ (Scan.further_le_of_token h.scan)
  refine ⟨(e.advance (further + 1)).skip, ?_, rfl, ?_, ?_⟩
  · rw [next, ahead, start]
    simp only [h.scan]
  · rw [advance_skip_start pending' fits, start]
  · rw [ahead_skip, ahead_advance, ahead, List.drop_succ_cons]

/-- After a step that gives out a token, nothing is pending and the token ends at the cursor. -/
theorem stop_of_next (pending : c.pending = []) (h : c.next o = .token token accepted d) :
    d.pending = [] ∧ c.start < d.start ∧ token.stop = d.start := by
  obtain ⟨white, x, t, kind, further, flaw, reads⟩ := exists_reads pending h
  obtain ⟨d', next, pending', start, _⟩ := reads.next pending
  rw [h] at next
  obtain ⟨rfl, rfl, rfl⟩ := Step.token.inj next
  have length : ((x :: t).take (further + 1)).length = further + 1 :=
    List.length_take_of_le (Nat.succ_le_succ (Scan.further_le_of_token reads.scan))
  refine ⟨pending', by omega, ?_⟩
  rw [Token.stop, length, start, Int.natCast_add (c.start + white.length)]

/-! ## Texts that are alike -/

/-- The cursors stand at the same offset, with nothing pending, before texts that are alike up to
the offset `e`. -/
structure Alike (e : Nat) (c c' : Cursor) : Prop where
  pending : c.pending = []
  pending' : c'.pending = []
  start : c'.start = c.start
  ahead : c'.ahead.take (e - c.start) = c.ahead.take (e - c.start)

/-- Before texts that are alike two characters further than a token, the same token is given out. -/
theorem Alike.next (h : Alike e c c') (token_c : c.next o = .token token accepted d)
    (le : d.start + 2 ≤ e) : ∃ d', c'.next o = .token token accepted d' ∧ Alike e d d' := by
  obtain ⟨white, x, t, kind, further, flaw, reads⟩ := exists_reads h.pending token_c
  obtain ⟨d₀, next, pending, start, ahead⟩ := reads.next h.pending
  rw [token_c] at next
  obtain ⟨rfl, rfl, rfl⟩ := Step.token.inj next
  -- the texts are alike up to two characters behind the token
  obtain ⟨m, rfl⟩ := Nat.exists_eq_add_of_le le
  have far : d.start + 2 + m - c.start = white.length + (further + (2 + m) + 1) := by omega
  have front := h.ahead
  rw [far, reads.ahead] at front
  obtain ⟨v, ahead', front⟩ := exists_append_of_take front
  obtain ⟨u, rfl, same⟩ := exists_cons_of_take front
  have reads' : c'.Reads o white x u kind further flaw :=
    ⟨ahead', reads.skipped, reads.black,
      Scan.ofText_of_take reads.scan (take_of_le same (by omega))⟩
  obtain ⟨d', next', pending', start', rest⟩ := reads'.next h.pending'
  have lexeme : (x :: u).take (further + 1) = (x :: t).take (further + 1) :=
    take_of_le front (by omega)
  rw [h.start] at start' next'
  rw [lexeme] at next'
  refine ⟨d', next', pending, pending', start'.trans start.symm, ?_⟩
  have behind := congrArg (List.drop further) same
  rw [List.drop_take, List.drop_take, Nat.add_sub_cancel_left] at behind
  rwa [Nat.add_assoc, Nat.add_sub_cancel_left, ahead, rest]

end Cursor

/-! ## Any number of tokens -/

namespace Lexer

/-- The answers when a lexer is asked `k` times for the next token, and the lexer after them. -/
def draw : Nat → Lexer → List Answer × Lexer
  | 0, l => ([], l)
  | k + 1, l => (l.next.1 :: (draw k l.next.2).1, (draw k l.next.2).2)

variable {l : Lexer} {token : Token} {accepted : Option Fault} {k e : Nat}

theorem next_of_token {d : Cursor} (streaming : l.streaming = true)
    (h : l.cursor.next l.options = .token token accepted d) :
    l.next = (.token token, { l with cursor := d, accepted := l.accepted ++ accepted.toList }) := by
  rw [next, if_pos streaming, h]
  rfl

theorem exists_of_next_token (h : l.next.1 = .token token) :
    ∃ accepted d, l.cursor.next l.options = .token token accepted d := by
  have asked := l.asked_next
  rw [h] at asked
  generalize l.next.2 = m at asked
  cases asked with
  | token _ step => exact ⟨_, _, step⟩

theorem exists_of_draw_succ {tokens : List Token} (streaming : l.streaming = true)
    (h : (draw (k + 1) l).1 = tokens.map .token) :
    ∃ token rest accepted m, tokens = token :: rest ∧
      l.cursor.next l.options = .token token accepted m.cursor ∧
      m = { l with cursor := m.cursor, accepted := l.accepted ++ accepted.toList } ∧
      m.streaming = true ∧ (draw k m).1 = rest.map .token ∧
      draw (k + 1) l = (.token token :: rest.map .token, (draw k m).2) := by
  obtain ⟨token, rest, rfl, first, behind⟩ := List.map_eq_cons_iff.mp h.symm
  obtain ⟨accepted, d, step⟩ := exists_of_next_token first.symm
  have after := next_of_token streaming step
  refine ⟨token, rest, accepted, l.next.2, rfl, ?_, ?_, ?_, behind.symm, ?_⟩
  · rw [after, step]
  · rw [after]
  · rw [after, streaming]
  · rw [draw, ← first, behind]

/-- After some tokens the lexer stands behind the last of them, and not before its first place. -/
theorem start_draw {tokens : List Token} (streaming : l.streaming = true)
    (pending : l.cursor.pending = []) (h : (draw k l).1 = tokens.map .token) :
    ((draw k l).2.cursor.start : Int) = (tokens.getLast?.map Token.stop).getD l.cursor.start ∧
      l.cursor.start ≤ (draw k l).2.cursor.start := by
  induction k generalizing l tokens with
  | zero =>
    obtain rfl := List.map_eq_nil_iff.mp h.symm
    exact ⟨rfl, Nat.le_refl _⟩
  | succ k ih =>
    obtain ⟨token, rest, accepted, m, rfl, step, _, streaming', behind, drawn⟩ :=
      exists_of_draw_succ streaming h
    obtain ⟨pending', lt, stop⟩ := Cursor.stop_of_next pending step
    obtain ⟨last, le⟩ := ih streaming' pending' behind
    rw [drawn]
    refine ⟨last.trans ?_, (Nat.le_of_lt lt).trans le⟩
    rw [List.getLast?_cons, ← stop]
    cases rest.getLast? <;> rfl

/-- What drawing tokens leaves as it is: the settings, the name, the text, and that nothing is
pending as long as the stream is open. -/
structure Drawn (o : Options) (filename source : Text) (l : Lexer) : Prop where
  options : l.options = o
  filename : l.filename = filename
  source : l.cursor.source = source
  pending : l.streaming = true → l.cursor.pending = []

theorem Drawn.of_new (o : Options) (filename source : Text) :
    Drawn o filename source (new o filename source) :=
  ⟨rfl, rfl, rfl, fun _ => rfl⟩

theorem Drawn.next {o : Options} {filename source : Text} (h : Drawn o filename source l) :
    Drawn o filename source l.next.2 := by
  have same := (Cursor.source_next l.options l.cursor).trans h.source
  have asked := l.asked_next
  generalize l.next.1 = answer, l.next.2 = m at asked ⊢
  cases asked with
  | closed => exact h
  | token streaming step =>
    rw [step] at same
    have pending := (Cursor.stop_of_next (h.pending streaming) step).1
    exact ⟨h.options, h.filename, same, fun _ => pending⟩
  | refused _ step | finished _ step =>
    rw [step] at same
    exact ⟨h.options, h.filename, same, nofun⟩

theorem Drawn.draw {o : Options} {filename source : Text} (h : Drawn o filename source l)
    (k : Nat) : Drawn o filename source (draw k l).2 := by
  induction k generalizing l with
  | zero => exact h
  | succ k ih => exact ih h.next

theorem draw_of_alike {c : Cursor} {tokens : List Token} (streaming : l.streaming = true)
    (alike : Cursor.Alike e l.cursor c) (h : (draw k l).1 = tokens.map .token)
    (le : (draw k l).2.cursor.start + 2 ≤ e) :
    ∃ d, draw k { l with cursor := c } = (tokens.map .token, { (draw k l).2 with cursor := d }) := by
  induction k generalizing l c tokens with
  | zero =>
    rw [← h]
    exact ⟨c, rfl⟩
  | succ k ih =>
    obtain ⟨token, rest, accepted, m, rfl, step, after, streaming', behind, drawn⟩ :=
      exists_of_draw_succ streaming h
    obtain ⟨pending', _, _⟩ := Cursor.stop_of_next alike.pending step
    rw [drawn] at le ⊢
    have further := (start_draw streaming' pending' behind).2
    obtain ⟨d, step', alike'⟩ := alike.next step ((Nat.add_le_add_right further 2).trans le)
    have after' : ({ l with cursor := c } : Lexer).next =
        (.token token, { m with cursor := d }) := by
      rw [after]
      exact next_of_token streaming step'
    obtain ⟨d', same⟩ := ih streaming' alike' behind le
    refine ⟨d', ?_⟩
    rw [draw, after', same]
    rfl

end Lexer

/-- A token is settled two characters behind it. Two sources that are alike up to two characters
behind the last of the tokens that are drawn from a lexer in front of the one give the same tokens,
and the same diagnostics up to then, the location and the line of the source apart. -/
theorem two_characters_of_lookahead (o : Options) (filename source other : Text) (k : Nat)
    (tokens : List Token) (last : Token)
    (drawn : ((Lexer.new o filename source).draw k).1 = tokens.map .token)
    (ends : tokens.getLast? = some last)
    (same : other.take (last.stop + 2).toNat = source.take (last.stop + 2).toNat) :
    ((Lexer.new o filename other).draw k).1 = tokens.map .token ∧
    (((Lexer.new o filename other).draw k).2.diagnostics.map fun r => (r.complaint, r.offset)) =
      ((Lexer.new o filename source).draw k).2.diagnostics.map fun r => (r.complaint, r.offset) := by
  have stop := (Lexer.start_draw rfl rfl drawn).1
  rw [ends, Option.map_some, Option.getD_some] at stop
  have alike : Cursor.Alike (last.stop + 2).toNat (Cursor.ofText source) (Cursor.ofText other) :=
    ⟨rfl, rfl, rfl, same⟩
  obtain ⟨d, drawn'⟩ := Lexer.draw_of_alike rfl alike drawn (by omega)
  have new : Lexer.new o filename other =
    { Lexer.new o filename source with cursor := Cursor.ofText other } := rfl
  rw [new, drawn']
  refine ⟨rfl, ?_⟩
  simp only [Lexer.diagnostics, List.map_map]
  rfl

theorem two_characters_of_lookahead_malformed :
    ((Lexer.new (Options.standard.inMode .lenient) [] "'ab 1.xy'".toList).draw 3).1 =
      [.token ⟨.character, "'a".toList, 0⟩, .token ⟨.identifier, "b".toList, 2⟩,
        .token ⟨.decimal, "1.".toList, 4⟩] ∧
    ((Lexer.new (Options.standard.inMode .lenient) [] "'ab 1.xy\"".toList).draw 3).1 =
      [.token ⟨.character, "'a".toList, 0⟩, .token ⟨.identifier, "b".toList, 2⟩,
        .token ⟨.decimal, "1.".toList, 4⟩] ∧
    (((Lexer.new (Options.standard.inMode .lenient) [] "'ab 1.xy\"".toList).draw
      3).2.diagnostics.map fun r => (r.complaint, r.offset)) =
      [(.unterminated "character".toList 0, 2)] := by
  have drawn : ((Lexer.new (Options.standard.inMode .lenient) [] "'ab 1.xy'".toList).draw 3).1 =
      [⟨.character, "'a".toList, 0⟩, ⟨.identifier, "b".toList, 2⟩,
        ⟨.decimal, "1.".toList, 4⟩].map .token := by decide +kernel
  obtain ⟨tokens, diagnostics⟩ := two_characters_of_lookahead (Options.standard.inMode .lenient) []
    "'ab 1.xy'".toList "'ab 1.xy\"".toList 3 _ ⟨.decimal, "1.".toList, 4⟩ drawn rfl (by decide)
  exact ⟨drawn, tokens, diagnostics.trans (by decide +kernel)⟩

/-- One character is not enough: behind `1.` it matters whether a digit follows. -/
example :
    ((Lexer.new Options.standard [] "1.x".toList).draw 1).1 = [.token ⟨.integer, "1".toList, 0⟩] ∧
    ((Lexer.new Options.standard [] "1.5".toList).draw 1).1 =
      [.token ⟨.decimal, "1.5".toList, 0⟩] := by
  decide +kernel

end Lexis
