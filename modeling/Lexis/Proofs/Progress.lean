import Lexis.Proofs.Agreement
import Lexis.Proofs.CorrectPrefix
import Lexis.Proofs.Session
import Lexis.Proofs.Stream

/-!
# Progress

Each time an open stream is asked for a token, it reads at least one character, or it is at the end
of the text. This holds from wherever the stream begins, since a literal is never refused before its
opening quote has been read, and the one character that would be refused unread, the space, is
always skipped.

So a stream comes to its end (`Lexer.drain`), and so does the recovery from errors, in which streams
are opened one after the other until one of them is not refused (`Lexer.recover`). The text ahead
bounds both.

Results:
1. `Cursor.length_ahead_of_next_refused`: what a step leaves ahead if it is refused.
2. `Lexer.draw_drain`, `Lexer.index_drain`: the answers of a stream up to its end, and how many.
3. `Lexer.recovered`: what the recovery from errors comes to.
4. `lexer_makes_progress`: all of this for a lexer that has been used in any way.
-/

namespace Lexis

/-! ## Steps -/

theorem Scan.depth_pos_of_refused {mode : Mode} {c : Char} {t : Text} {flaw : Flaw}
    (space : c ≠ ' ') (h : ofText mode c t = .refused flaw) : 0 < flaw.depth := by
  cases mode with
  | strict => exact (exists_completion space h).2.1
  | lenient => exact absurd h (lenient_ne_refused space t flaw)

namespace Cursor

variable {o : Options} {c d : Cursor} {fault : Fault}

theorem length_ahead_of_next_refused (h : c.next o = .refused fault d) :
    d.ahead.length < c.ahead.length := by
  have le := length_ahead_skipWhitespace o.whitespace c
  rw [next] at h
  cases found : (c.skipWhitespace o.whitespace).scan? o.mode with
  | none =>
    rw [found] at h
    cases h
  | some step =>
    rw [found, Option.getD_some] at h
    subst h
    obtain ⟨x, t, flaw, ahead, scan, -, rfl⟩ := exists_of_scan?_refused found
    have black := not_mem_of_skipWhitespace ahead
    have pos := Scan.depth_pos_of_refused (Options.ne_space_of_not_mem black) scan
    have more : 0 < (c.skipWhitespace o.whitespace).ahead.length := by simp [ahead]
    rw [ahead_advance, List.length_drop]
    exact (Nat.sub_lt more pos).trans_le le

/-- The less text is ahead, the further along the cursor stands. -/
theorem index_lt_of_length_ahead (source : d.source = c.source)
    (shorter : d.ahead.length < c.ahead.length) : c.index < d.index := by
  have all := c.length_source
  rw [← source, d.length_source] at all
  omega

theorem index_of_ahead_nil (h : c.ahead = []) : c.index = c.source.length := by
  rw [length_source, h, List.length_nil, Nat.add_zero]

end Cursor

namespace Lexer

variable {l m : Lexer} {answer : Answer} {token : Token}

/-! ## Streams -/

/-- Unless the stream is at its end, it leaves less text ahead. -/
theorem length_ahead_of_next (h : l.next = (answer, m)) (going : answer ≠ .finished) :
    m.cursor.ahead.length < l.cursor.ahead.length := by
  cases asked_of_next h with
  | token _ step => exact Cursor.length_ahead_of_next_token step
  | refused _ step => exact Cursor.length_ahead_of_next_refused step
  | closed | finished => exact absurd rfl going

theorem index_lt_of_next (h : l.next = (answer, m)) (going : answer ≠ .finished) :
    l.cursor.index < m.cursor.index := by
  have continues := continues_next l
  rw [h] at continues
  exact Cursor.index_lt_of_length_ahead continues.source (length_ahead_of_next h going)

/-- An open stream is at its end only where nothing is ahead. -/
theorem ahead_of_next_finished (streaming : l.streaming = true) (h : l.next = (.finished, m)) :
    m.cursor.ahead = [] := by
  cases asked_of_next h with
  | closed closed => cases closed.symm.trans streaming
  | finished _ step => exact Cursor.ahead_of_next_finished step

theorem streaming_of_next_token (h : l.next = (.token token, m)) : m.streaming = true := by
  cases asked_of_next h with
  | token streaming => exact streaming

/-- What comes of asking a stream for tokens up to its end: the tokens, the fault with which it is
refused, if it is, and the lexer after it. -/
structure Drained where
  tokens : List Token
  refusal : Option Fault
  after : Lexer

namespace Drained

def cons (token : Token) (stream : Drained) : Drained :=
  { stream with tokens := token :: stream.tokens }

def last (stream : Drained) : Answer :=
  match stream.refusal with
  | some fault => .refused fault
  | none => .finished

end Drained

def drain (l : Lexer) : Drained :=
  match _h : l.next with
  | (.token token, m) => m.drain.cons token
  | (.refused fault, m) => ⟨[], some fault, m⟩
  | (.finished, m) => ⟨[], none, m⟩
termination_by l.cursor.ahead.length
decreasing_by exact length_ahead_of_next _h nofun

/-- The answers up to the end of the stream are its tokens and the last answer. -/
theorem draw_drain (l : Lexer) : l.draw (l.drain.tokens.length + 1) =
    (l.drain.tokens.map .token ++ [l.drain.last], l.drain.after) := by
  fun_induction drain l with
  | case1 l token m step ih =>
    have rest : draw (m.drain.cons token).tokens.length m = _ := ih
    rw [draw, step]
    dsimp only
    rw [rest]
    rfl
  | case2 l fault m step | case3 l m step =>
    rw [draw, step]
    rfl

theorem continues_drain (l : Lexer) : l.Continues l.drain.tokens l.drain.after := by
  fun_induction drain l with
  | case1 l token m step ih =>
    have first := continues_next l
    rw [step] at first
    exact first.append ih
  | case2 l fault m step | case3 l m step =>
    have last := continues_next l
    rwa [step] at last

/-- Each answer of a stream, but that it is finished, takes up a character at least. -/
theorem index_drain (l : Lexer) :
    l.cursor.index + (l.drain.tokens.length + l.drain.refusal.toList.length) ≤
      l.drain.after.cursor.index := by
  fun_induction drain l with
  | case1 l token m step ih =>
    have lt := index_lt_of_next step nofun
    simp only [Drained.cons, List.length_cons]
    omega
  | case2 l fault m step => exact index_lt_of_next step nofun
  | case3 l m step =>
    have continues := continues_next l
    rw [step] at continues
    exact continues.passage.toOnward.index

/-- A stream that is not refused uses up the text. -/
theorem ahead_drain (streaming : l.streaming = true) (h : l.drain.refusal = none) :
    l.drain.after.cursor.ahead = [] := by
  fun_induction drain l with
  | case1 l token m step ih => exact ih (streaming_of_next_token step) h
  | case2 l fault m step => cases h
  | case3 l m step => exact ahead_of_next_finished streaming step

/-! ## Recovery from errors -/

theorem length_ahead_of_drain_refused {tokens : List Token} {fault : Fault}
    (h : l.restart.drain = ⟨tokens, some fault, m⟩) :
    m.cursor.ahead.length < l.cursor.ahead.length := by
  have source := (continues_drain l.restart).source
  have index := index_drain l.restart
  rw [h] at source index
  have all := m.cursor.length_source
  rw [source, Cursor.length_source] at all
  simp only [Option.toList_some, List.length_singleton, restart] at all index
  omega

/-- Recovers from errors: opens a stream and asks it for tokens up to its end, again and again until
one of the streams is not refused. The faults of those that are, and the lexer after it. -/
def recover (l : Lexer) : List Fault × Lexer :=
  match _h : l.restart.drain with
  | ⟨_, some fault, m⟩ => (fault :: m.recover.1, m.recover.2)
  | ⟨_, none, m⟩ => ([], m)
termination_by l.cursor.ahead.length
decreasing_by all_goals exact length_ahead_of_drain_refused _h

/-- The recovery comes to the end of the text, and each fault on the way takes up a character at
least. -/
theorem recovered (l : Lexer) :
    l.recover.2.cursor.source = l.cursor.source ∧ l.recover.2.cursor.ahead = [] ∧
      l.cursor.index + l.recover.1.length ≤ l.recover.2.cursor.index := by
  fun_induction recover l with
  | case1 l tokens fault m drained ih =>
    have source := (continues_drain l.restart).source
    have index := index_drain l.restart
    rw [drained] at source index
    obtain ⟨source', ahead, index'⟩ := ih
    refine ⟨source'.trans source, ahead, ?_⟩
    simp only [Option.toList_some, List.length_singleton, restart] at index
    show l.cursor.index + (m.recover.1.length + 1) ≤ m.recover.2.cursor.index
    omega
  | case2 l tokens m drained =>
    have source := (continues_drain l.restart).source
    have index := index_drain l.restart
    have ahead := ahead_drain (l := l.restart) rfl (congrArg Drained.refusal drained)
    rw [drained] at source index ahead
    exact ⟨source, ahead, (Nat.add_le_add_left (Nat.zero_le _) _).trans index⟩

end Lexer

/-- A lexer makes progress, whatever it has been used for before.

* Asked for a token, an open stream gives one out or is refused, and reads a character at least, or
  it is finished, and stands at the end of the source.
* A stream comes to its end after no more tokens than the source has characters.
* The recovery from errors comes to the end of the source after no more faults than the source has
  characters. -/
theorem lexer_makes_progress (o : Options) (filename source : Text) (ops : List Lexer.Operation)
    (l : Lexer) (reached : (Lexer.session ops (Lexer.new o filename source)).2 = l) :
    (l.streaming = true →
      match l.next with
      | (.token _, m) => l.cursor.index < m.cursor.index
      | (.refused _, m) => l.cursor.index < m.cursor.index
      | (.finished, m) => m.cursor.index = source.length) ∧
    (l.draw (l.drain.tokens.length + 1) =
        (l.drain.tokens.map .token ++ [l.drain.last], l.drain.after) ∧
      l.drain.tokens.length ≤ source.length) ∧
    l.recover.1.length ≤ source.length ∧ l.recover.2.cursor.index = source.length := by
  subst reached
  have same : (Lexer.session ops (Lexer.new o filename source)).2.cursor.source = source :=
    (Lexer.continues_session (Lexer.new o filename source) ops).source
  generalize (Lexer.session ops (Lexer.new o filename source)).2 = l at same ⊢
  refine ⟨fun streaming => ?_, ⟨l.draw_drain, ?_⟩, ?_⟩
  · have continues := Lexer.continues_next l
    obtain ⟨answer, m, step⟩ : ∃ answer m, l.next = (answer, m) := ⟨_, _, rfl⟩
    rw [step] at continues ⊢
    cases answer with
    | token token => exact Lexer.index_lt_of_next step nofun
    | refused fault => exact Lexer.index_lt_of_next step nofun
    | finished =>
      have ahead := Lexer.ahead_of_next_finished streaming step
      show m.cursor.index = source.length
      rw [Cursor.index_of_ahead_nil ahead, continues.source, same]
  · have index := l.index_drain
    have inside := l.drain.after.cursor.index_le_length_source
    rw [l.continues_drain.source, same] at inside
    omega
  · obtain ⟨source', ahead, index⟩ := l.recovered
    have stop := Cursor.index_of_ahead_nil ahead
    rw [source', same] at stop
    exact ⟨by omega, stop⟩

/-- A lexer that was refused a literal: the quote is pending, and leads the token that the line end
forms. Two more faults are met on the way to the end. -/
theorem lexer_makes_progress_refused :
    let l := (Lexer.session [.scan] (Lexer.new .standard [] "'\n'a \"".toList)).2
    l.next.1 = .token ⟨.operator, "'\n".toList, 0⟩ ∧ l.cursor.index < l.next.2.cursor.index ∧
      l.draw 2 = ([.token ⟨.operator, "'\n".toList, 0⟩,
        .refused ⟨.unterminated .character, 2, 4⟩], l.drain.after) ∧
      l.recover.1 = [⟨.unterminated .character, 2, 4⟩, ⟨.unterminated .string, 5, 6⟩] ∧
      l.recover.2.cursor.index = 6 := by
  intro l
  have first : l.next = (.token ⟨.operator, "'\n".toList, 0⟩, l.next.2) :=
    Prod.ext (by decide +kernel) rfl
  have drained : l.drain.tokens = [⟨.operator, "'\n".toList, 0⟩] ∧
      l.drain.last = .refused ⟨.unterminated .character, 2, 4⟩ := by decide +kernel
  obtain ⟨step, ⟨stream, -⟩, -, stop⟩ :=
    lexer_makes_progress .standard [] "'\n'a \"".toList [.scan] l rfl
  have read := step (by decide +kernel)
  rw [first] at read
  rw [drained.1, drained.2] at stream
  exact ⟨congrArg Prod.fst first, read, stream, by decide +kernel, stop⟩

end Lexis
