import Lexis.Proofs.Boundary
import Lexis.Proofs.Session

/-!
# Reading piece by piece

A session that looks ahead, opens streams, draws tokens from them and lexes, in any order, reads
nothing but whole tokens (`Operation.tokenwise`). Streams and lexing share one cursor and one list
of accepted faults, so what such a session has read so far and what a run would read from here on
make up the same reading at all times (`Lexer.reading`), as long as nothing is refused. What is
refused ends that reading, so it is the fault that ends the run over the whole text.

Results:
1. `Lexer.reading_perform`, `Lexer.reading_session`: an operation, and a session, leave the reading
   as it is.
2. `Lexer.refusal_of_fault`: an operation raises the fault that ends the reading.
3. `Lexer.exists_raisesFirst`: a session in which something is refused has a first such operation.
4. `Lexer.next_of_session`: a stream that is closed stays closed until the next is opened.
5. `piecewise_lex`: reading piece by piece and reading at once agree.
-/

namespace Lexis

/-! ## Runs that have ended -/

namespace Cursor

variable {o : Options} {c d : Cursor}

/-- A step that finds the text used up leaves nothing to read. -/
theorem reading_run_of_finished (h : c.next o = .finished d) :
    (d.run o).reading = .finished := by
  have ahead := ahead_of_next_finished h
  have again : d.next o = .finished d := by
    simp [next, skipWhitespace, scan?, ahead]
  rw [run_eq_next, again]
  rfl

/-- So does a run that was not refused. -/
theorem reading_run_after (h : (c.run o).refusal = none) :
    ((c.run o).after.run o).reading = .finished := by
  fun_induction Cursor.run o c with
  | case1 c token accepted d next ih => exact ih h
  | case2 c fault d next => cases h
  | case3 c d next => exact reading_run_of_finished next

end Cursor

namespace Lexer

/-! ## Operations that read whole tokens -/

/-- The operation looks ahead or reads whole tokens: it takes no character out of them, and starts
at none that is skipped. -/
def Operation.tokenwise : Operation → Bool
  | .peek _ | .next | .restart | .lex => true
  | .accept _ | .scan => false

def Answer.fault? : Answer → Option Fault
  | .refused fault => some fault
  | .token _ => none
  | .finished => none

def Response.fault? : Response → Option Fault
  | .one answer => answer.fault?
  | .all (.error fault) => some fault
  | .all (.ok _) => none
  | .seen _ => none
  | .done => none

variable {l m : Lexer} {op : Operation} {ops before : List Operation} {fault : Fault}

/-- What is read in all, if some tokens have been drawn and a run reads the rest. -/
def reading (drawn : List Token) (l : Lexer) : Reading :=
  Reading.append ⟨drawn, l.accepted, none⟩ (l.cursor.run l.options).reading

theorem reading_new (o : Options) (filename source : Text) :
    (new o filename source).reading [] = o.read source :=
  lex_reading o source

theorem prefix_reading (drawn : List Token) (l : Lexer) : drawn <+: (l.reading drawn).tokens :=
  List.prefix_append _ _

theorem reading_next (drawn : List Token) (clean : l.next.1.fault? = none) :
    l.next.2.reading (drawn ++ l.next.1.tokens) = l.reading drawn := by
  have run := Cursor.run_eq_next l.options l.cursor
  have asked := l.asked_next
  generalize l.next.1 = answer, l.next.2 = m at asked clean ⊢
  cases asked with
  | closed => rw [Answer.tokens, List.append_nil]
  | token _ step =>
    rw [step] at run
    simp [reading, Answer.tokens, run, Run.reading, Run.cons, Reading.append]
  | refused _ step => cases clean
  | finished _ step =>
    rw [step] at run
    simp only [reading, Answer.tokens, List.append_nil, run, Cursor.reading_run_of_finished step]
    rfl

theorem exists_refused_of_next (h : l.next.1.fault? = some fault) :
    (∃ d, l.cursor.next l.options = .refused fault d) ∧ l.next.2.streaming = false := by
  have asked := l.asked_next
  generalize l.next.1 = answer, l.next.2 = m at asked h ⊢
  cases asked with
  | refused _ step =>
    cases h
    exact ⟨⟨_, step⟩, rfl⟩
  | closed | token | finished => cases h

theorem fault?_lex (l : Lexer) :
    (Response.all l.lex.1).fault? = (l.cursor.run l.options).refusal := by
  rw [lex]
  cases (l.cursor.run l.options).refusal <;> rfl

/-- Once lexing has succeeded, nothing is left to read. -/
theorem reading_of_lexed (drawn : List Token) (clean : (Response.all l.lex.1).fault? = none) :
    l.lex.2.reading drawn = ⟨drawn, l.lex.2.accepted, none⟩ := by
  rw [fault?_lex] at clean
  have ended : (l.lex.2.cursor.run l.lex.2.options).reading = .finished :=
    Cursor.reading_run_after clean
  simp [reading, ended, Reading.append, Reading.finished]

theorem reading_lex (drawn : List Token) (clean : (Response.all l.lex.1).fault? = none) :
    l.lex.2.reading (drawn ++ (Response.all l.lex.1).tokens) = l.reading drawn := by
  rw [reading_of_lexed _ clean]
  rw [fault?_lex] at clean
  simp only [lex, clean, Response.tokens]
  simp [reading, Reading.append, Run.reading, clean]

/-- An operation that raises nothing leaves the reading as it is. -/
theorem reading_perform (drawn : List Token) (whole : op.tokenwise)
    (clean : (l.perform op).1.fault? = none) :
    (l.perform op).2.reading (drawn ++ (l.perform op).1.tokens) = l.reading drawn := by
  cases op with
  | peek sets => exact congrArg l.reading (List.append_nil drawn)
  | next => exact reading_next drawn clean
  | restart => exact congrArg l.reading (List.append_nil drawn)
  | lex => exact reading_lex drawn clean
  | accept sets | scan => cases whole

/-- An operation raises the fault that ends the reading. -/
theorem refusal_of_fault (drawn : List Token) (whole : op.tokenwise)
    (raised : (l.perform op).1.fault? = some fault) : (l.reading drawn).refusal = some fault := by
  cases op with
  | peek sets | restart => cases raised
  | next =>
    obtain ⟨⟨d, step⟩, -⟩ := exists_refused_of_next raised
    have run := Cursor.run_eq_next l.options l.cursor
    rw [step] at run
    exact congrArg Run.refusal run
  | lex => exact (fault?_lex l).symm.trans raised
  | accept sets | scan => cases whole

/-! ## Sessions -/

/-- A session in which nothing is raised leaves the reading as it is. -/
theorem reading_session (drawn : List Token) (whole : ∀ op ∈ ops, op.tokenwise)
    (clean : ∀ response ∈ (session ops l).1, response.fault? = none) :
    (session ops l).2.reading (drawn ++ (session ops l).1.flatMap Response.tokens) =
      l.reading drawn := by
  induction ops generalizing l drawn with
  | nil => exact congrArg l.reading (List.append_nil drawn)
  | cons op ops ih =>
    rw [List.forall_mem_cons] at whole
    obtain ⟨first, later⟩ := List.forall_mem_cons.mp clean
    calc (session ops (l.perform op).2).2.reading
          (drawn ++ ((l.perform op).1.tokens ++
            (session ops (l.perform op).2).1.flatMap Response.tokens))
        = (l.perform op).2.reading (drawn ++ (l.perform op).1.tokens) := by
          rw [← List.append_assoc, ih _ whole.2 later]
      _ = l.reading drawn := reading_perform drawn whole.1 first

theorem session_append (l : Lexer) (ops others : List Operation) :
    session (ops ++ others) l =
      ((session ops l).1 ++ (session others (session ops l).2).1,
        (session others (session ops l).2).2) := by
  induction ops generalizing l with
  | nil => rfl
  | cons op ops ih => simp only [List.cons_append, session, ih]

theorem reading_of_session_lex (drawn : List Token) (whole : ∀ op ∈ ops ++ [.lex], op.tokenwise)
    (clean : ∀ response ∈ (session (ops ++ [.lex]) l).1, response.fault? = none) :
    l.reading drawn =
      ⟨drawn ++ (session (ops ++ [.lex]) l).1.flatMap Response.tokens,
        (session (ops ++ [.lex]) l).2.accepted, none⟩ := by
  rw [← reading_session drawn whole clean]
  rw [session_append] at clean ⊢
  exact reading_of_lexed _ ((List.forall_mem_append.mp clean).2 _ (List.mem_singleton_self _))

/-- `l.RaisesFirst before op fault m`: the operations of `before` raise nothing, the one behind them
raises the fault, and leaves the lexer `m`. -/
structure RaisesFirst (l : Lexer) (before : List Operation) (op : Operation) (fault : Fault)
    (m : Lexer) : Prop where
  clean : ∀ response ∈ (session before l).1, response.fault? = none
  raised : ((session before l).2.perform op).1.fault? = some fault
  left : ((session before l).2.perform op).2 = m

/-- If something is raised in a session, some operation is the first to do so. -/
theorem exists_raisesFirst (h : ¬ ∀ response ∈ (session ops l).1, response.fault? = none) :
    ∃ before op after fault m, ops = before ++ op :: after ∧ l.RaisesFirst before op fault m := by
  induction ops generalizing l with
  | nil => exact absurd (List.forall_mem_nil _) h
  | cons op ops ih =>
    cases first : (l.perform op).1.fault? with
    | some fault =>
      exact ⟨[], op, ops, fault, _, rfl, List.forall_mem_nil _, first, rfl⟩
    | none =>
      have later : ¬ ∀ response ∈ (session ops (l.perform op).2).1, response.fault? = none := by
        intro clean
        exact h (List.forall_mem_cons.mpr ⟨first, clean⟩)
      obtain ⟨before, op', after, fault, m, rfl, raises⟩ := ih later
      exact ⟨op :: before, op', after, fault, m, rfl,
        List.forall_mem_cons.mpr ⟨first, raises.clean⟩, raises.raised, raises.left⟩

namespace RaisesFirst

/-- The first operation to raise anything raises the fault that ends the reading. -/
theorem refusal (h : l.RaisesFirst before op fault m) (drawn : List Token)
    (whole : ∀ op' ∈ before, op'.tokenwise) (last : op.tokenwise) :
    (l.reading drawn).refusal = some fault := by
  rw [← reading_session drawn whole h.clean]
  exact refusal_of_fault _ last h.raised

theorem tokens (h : l.RaisesFirst before op fault m) (drawn : List Token)
    (whole : ∀ op' ∈ before, op'.tokenwise) :
    drawn ++ (session before l).1.flatMap Response.tokens <+: (l.reading drawn).tokens := by
  rw [← reading_session drawn whole h.clean]
  exact prefix_reading _ _

theorem report (h : l.RaisesFirst before op fault m) : m.report = l.report := by
  rw [← h.left]
  exact ((continues_session l before).append (continues_perform _ op)).report

end RaisesFirst

/-! ## Closed streams -/

theorem next_of_closed (closed : l.streaming = false) : l.next = (.finished, l) := by
  rw [next, if_neg (by simp [closed])]

theorem closed_perform (closed : l.streaming = false) (other : op ≠ .restart) :
    (l.perform op).2.streaming = false := by
  cases op with
  | peek sets | lex => exact closed
  | accept sets =>
    show (l.accept sets).2.streaming = false
    rw [accept]
    split <;> exact closed
  | scan =>
    show l.scan.2.streaming = false
    rw [scan]
    cases (l.cursor.scan? l.options.mode).getD (.finished l.cursor) <;> exact closed
  | next =>
    show l.next.2.streaming = false
    rw [next_of_closed closed]
    exact closed
  | restart => exact absurd rfl other

/-- A closed stream answers that it is finished, whatever else the lexer is asked for, until the
next stream is opened. -/
theorem next_of_session (closed : l.streaming = false) (unopened : .restart ∉ ops) :
    (session ops l).2.next.1 = .finished := by
  induction ops generalizing l with
  | nil => exact congrArg Prod.fst (next_of_closed closed)
  | cons op ops ih =>
    rw [List.mem_cons, not_or] at unopened
    exact ih (closed_perform closed (Ne.symm unopened.1)) unopened.2

/-- A fault is raised by lexing, or by a stream that stays closed afterwards. -/
theorem RaisesFirst.lex_or_next (h : l.RaisesFirst before op fault m) (last : op.tokenwise) :
    op = .lex ∨ op = .next ∧
      ∀ later, .restart ∉ later → (session later m).2.next.1 = .finished := by
  obtain ⟨-, raised, rfl⟩ := h
  cases op with
  | next =>
    refine .inr ⟨rfl, ?_⟩
    intro later unopened
    exact next_of_session (exists_refused_of_next raised).2 unopened
  | lex => exact .inl rfl
  | peek sets | restart => cases raised
  | accept sets | scan => cases last

end Lexer

/-- Reading piece by piece and reading at once agree. Let a lexer be asked for tokens of its
streams, to look ahead, to open streams and to lex, any number of times and in any order, and to lex
at the end.

If lexing at once succeeds, nothing is raised, the tokens returned are all tokens one after the
other, and the diagnostics are the same. If lexing at once raises a fault, then that fault is the
first to be raised, with the same report. What was returned before are tokens in front of it, and a
stream that has raised it is finished from then on. -/
theorem piecewise_lex (o : Options) (filename source : Text) (ops : List Lexer.Operation)
    (whole : ∀ op ∈ ops, op.tokenwise) :
    (∀ tokens, (Lexer.new o filename source).lex.1 = .ok tokens →
      (∀ response ∈ (Lexer.session (ops ++ [.lex]) (Lexer.new o filename source)).1,
        response.fault? = none) ∧
      (Lexer.session (ops ++ [.lex]) (Lexer.new o filename source)).1.flatMap
        Lexer.Response.tokens = tokens ∧
      (Lexer.session (ops ++ [.lex]) (Lexer.new o filename source)).2.diagnostics =
        (Lexer.new o filename source).lex.2.diagnostics) ∧
    (∀ fault, (Lexer.new o filename source).lex.1 = .error fault →
      ∃ before op after m, ops ++ [.lex] = before ++ op :: after ∧
        (Lexer.new o filename source).RaisesFirst before op fault m ∧
        (Lexer.session before (Lexer.new o filename source)).1.flatMap Lexer.Response.tokens <+:
          (lex o source).tokens ∧
        m.report fault = (Lexer.new o filename source).lex.2.report fault ∧
        (op = .lex ∨ op = .next ∧
          ∀ later, .restart ∉ later → (Lexer.session later m).2.next.1 = .finished)) := by
  have all : ∀ op ∈ ops ++ [.lex], op.tokenwise :=
    List.forall_mem_append.mpr ⟨whole, List.forall_mem_singleton.mpr rfl⟩
  constructor
  · intro tokens lexed
    obtain ⟨finished, rfl⟩ := (Lexer.lex_new_eq_ok_iff _ _ _).mp lexed
    have clean : ∀ response ∈ (Lexer.session (ops ++ [.lex]) (Lexer.new o filename source)).1,
        response.fault? = none := by
      by_contra raised
      obtain ⟨before, op, after, fault, m, parts, raises⟩ := Lexer.exists_raisesFirst raised
      rw [parts, List.forall_mem_append, List.forall_mem_cons] at all
      have refusal := raises.refusal [] all.1 all.2.1
      rw [Lexer.reading_new, finished] at refusal
      cases refusal
    have total := Lexer.reading_of_session_lex [] all clean
    rw [Lexer.reading_new] at total
    refine ⟨clean, (congrArg Reading.tokens total).symm, ?_⟩
    rw [Lexer.diagnostics_lex_new, total, Lexer.diagnostics,
      (Lexer.continues_session (Lexer.new o filename source) _).report]
    rfl
  · intro fault lexed
    have refusal := (Lexer.lex_new_eq_error_iff _ _ _).mp lexed
    have raised : ¬ ∀ response ∈ (Lexer.session (ops ++ [.lex]) (Lexer.new o filename source)).1,
        response.fault? = none := by
      intro clean
      have total := Lexer.reading_of_session_lex [] all clean
      rw [Lexer.reading_new] at total
      rw [total] at refusal
      cases refusal
    obtain ⟨before, op, after, fault', m, parts, raises⟩ := Lexer.exists_raisesFirst raised
    rw [parts, List.forall_mem_append, List.forall_mem_cons] at all
    have same := raises.refusal [] all.1 all.2.1
    rw [Lexer.reading_new, refusal] at same
    obtain rfl := Option.some.inj same
    refine ⟨before, op, after, m, parts, raises, raises.tokens [] all.1, ?_,
      raises.lex_or_next all.2.1⟩
    rw [raises.report, Lexer.report_lex_new]
    rfl

/-- Two streams and lexing share the tokens of a text between them. In strict reading the first
fault that they raise is that of the text. -/
theorem piecewise_lex_two_streams :
    ((Lexer.session [.next, .restart, .peek [['\'']], .next, .lex]
        (Lexer.new (Options.standard.inMode .lenient) [] "x 'ab' y".toList)).1.flatMap
      Lexer.Response.tokens = [⟨.identifier, ['x'], 0⟩, ⟨.character, "'a".toList, 2⟩,
        ⟨.identifier, ['b'], 4⟩, ⟨.character, "' ".toList, 5⟩, ⟨.identifier, ['y'], 7⟩]) ∧
    (Lexer.session [.next, .restart, .peek [['\'']], .next, .lex]
        (Lexer.new (Options.standard.inMode .lenient) [] "x 'ab' y".toList)).2.diagnostics =
      [Fault.report "x 'ab' y".toList [] ⟨.unterminated .character, 2, 4⟩,
        Fault.report "x 'ab' y".toList [] ⟨.unterminated .character, 5, 7⟩] ∧
    ∃ before op after m,
      [.next, .restart, .peek [['\'']], .next, .lex] = before ++ op :: after ∧
        (Lexer.new .standard [] "x 'ab' y".toList).RaisesFirst before op
          ⟨.unterminated .character, 2, 4⟩ m ∧
        (Lexer.session before (Lexer.new .standard [] "x 'ab' y".toList)).1.flatMap
          Lexer.Response.tokens <+: [⟨.identifier, ['x'], 0⟩] := by
  have whole : ∀ op ∈ [.next, .restart, .peek [['\'']], .next], Lexer.Operation.tokenwise op := by
    decide
  have lexed : (Lexer.new (Options.standard.inMode .lenient) [] "x 'ab' y".toList).lex.1 =
      .ok [⟨.identifier, ['x'], 0⟩, ⟨.character, "'a".toList, 2⟩, ⟨.identifier, ['b'], 4⟩,
        ⟨.character, "' ".toList, 5⟩, ⟨.identifier, ['y'], 7⟩] := by
    decide +kernel
  obtain ⟨-, tokens, diagnostics⟩ := (piecewise_lex _ _ _ _ whole).1 _ lexed
  obtain ⟨before, op, after, m, parts, raises, front, -, -⟩ :=
    (piecewise_lex .standard [] "x 'ab' y".toList _ whole).2 ⟨.unterminated .character, 2, 4⟩
      (by decide +kernel)
  refine ⟨tokens, diagnostics.trans (by decide +kernel), before, op, after, m, parts, raises, ?_⟩
  have all : (lex .standard "x 'ab' y".toList).tokens = [⟨.identifier, ['x'], 0⟩] := by
    decide +kernel
  rwa [all] at front

end Lexis
