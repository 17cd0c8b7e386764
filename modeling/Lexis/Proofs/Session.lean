import Lexis.Proofs.LookupSafety
import Lexis.Proofs.Tiling

/-!
# Sessions

A session is any number of operations of one lexer, one after the other, in any order and with the
refused ones among them. So an operation may begin where no reading of a whole text ever stands:
with characters pending that were accepted or belong to a refused literal, before whitespace, or at
the end of the text.

All the same a session only ever goes on (`Lexer.Continues`): the cursor moves forward, tokens are
given out of what it passes (`Cursor.Passage`), and faults are added to those accepted before. One
step shows this for each operation, and a session is such steps.

Results:
1. `Cursor.passage_next`, `Cursor.passage_run`: a step and a run, from any cursor.
2. `Cursor.Passage.placed`, `Cursor.Passage.pairwise`: where the tokens stand that are given out.
3. `Lexer.continues_perform`, `Lexer.continues_session`: an operation, and any number of them.
4. `Lexer.looksOutside_iff`: the one operation that looks up a character where the text has none.
5. `lexer_sound_in_session`: the state of the lexer and its tokens, for every session.
-/

namespace Lexis

/-- The token of a step, if it gives one out. -/
def Step.tokens : Step → List Token
  | .token t _ _ => [t]
  | .refused _ _ => []
  | .finished _ => []

namespace Cursor

variable {c d e : Cursor} {tokens others : List Token}

/-! ## Going on -/

theorem pending_le_index (c : Cursor) : c.pending.length ≤ c.index := Nat.le_add_left _ _

theorem index_le_length_source (c : Cursor) : c.index ≤ c.source.length := by
  rw [length_source]
  exact Nat.le_add_right _ _

theorem start_le_length_source (c : Cursor) : c.start ≤ c.source.length :=
  (Nat.le_add_right _ _).trans (index_le_length_source c)

/-- What is ahead is the source without what has been read. -/
theorem drop_index_source (c : Cursor) : c.source.drop c.index = c.ahead := by
  rw [source, ← List.append_assoc]
  refine List.drop_left' ?_
  rw [List.length_append, List.length_reverse, index, c.start_eq]

/-- The cursor has gone on in its text. -/
structure Onward (c d : Cursor) : Prop where
  source : d.source = c.source
  start : c.start ≤ d.start
  index : c.index ≤ d.index

namespace Onward

theorem refl (c : Cursor) : c.Onward c := ⟨rfl, Nat.le_refl _, Nat.le_refl _⟩

theorem trans (h : c.Onward d) (h' : d.Onward e) : c.Onward e :=
  ⟨h'.source.trans h.source, h.start.trans h'.start, h.index.trans h'.index⟩

theorem advance (c : Cursor) (n : Nat) : c.Onward (c.advance n) := by
  refine ⟨source_advance c n, Nat.le_refl _, ?_⟩
  rw [index_advance]
  exact Nat.le_add_right _ _

theorem skip (c : Cursor) : c.Onward c.skip :=
  ⟨source_skip c, Nat.le_add_right _ _, (index_skip c).ge⟩

theorem skipWhitespace (whitespace : Text) (c : Cursor) :
    c.Onward (c.skipWhitespace whitespace) := by
  unfold Cursor.skipWhitespace
  split
  · exact refl c
  · exact (advance c _).trans (skip _)

end Onward

/-! ## Giving out tokens on the way -/

/-- `c.Passage tokens d`: on the way from `c` to `d` the tokens have been given out, each of them
what was pending at some place, and not empty. -/
inductive Passage : Cursor → List Token → Cursor → Prop
  | onward {c d : Cursor} : c.Onward d → Passage c [] d
  | token {c d e : Cursor} {kind : Kind} {tokens : List Token} : c.Onward d → d.pending ≠ [] →
      Passage d.skip tokens e → Passage c (d.token kind :: tokens) e

namespace Passage

theorem toOnward (h : c.Passage tokens d) : c.Onward d := by
  induction h with
  | onward on => exact on
  | token on _ _ ih => exact on.trans ((Onward.skip _).trans ih)

theorem of_onward (on : c.Onward d) (h : d.Passage tokens e) : c.Passage tokens e := by
  cases h with
  | onward on' => exact .onward (on.trans on')
  | token on' ne rest => exact .token (on.trans on') ne rest

theorem append (h : c.Passage tokens d) (h' : d.Passage others e) :
    c.Passage (tokens ++ others) e := by
  induction h with
  | onward on => exact of_onward on h'
  | token on ne _ ih => exact .token on ne (ih h')

/-- What is pending is the piece of the source from the start of the pending lexeme on. -/
theorem extract_pending (c : Cursor) : c.source.extract c.start c.index = c.pending := by
  have piece := Tiling.extract_between c.passed.reverse c.pending c.ahead
  rwa [List.length_reverse, ← c.start_eq] at piece

theorem stop_token (c : Cursor) (kind : Kind) : (c.token kind).stop = c.skip.start :=
  (Int.natCast_add _ _).symm

/-- A token that is given out is not empty, and is the piece of the source that its offsets name. It
stands in what has been passed on the way. -/
theorem placed (h : c.Passage tokens e) {token : Token} (mem : token ∈ tokens) :
    token.lexeme ≠ [] ∧ (c.start : Int) ≤ token.start ∧ token.stop ≤ e.start ∧
      token.lexeme = c.source.extract token.start.toNat token.stop.toNat := by
  induction h with
  | onward => exact absurd mem List.not_mem_nil
  | @token c d e kind tokens on ne rest ih =>
    rcases List.mem_cons.mp mem with rfl | mem
    · have behind : (d.token kind).stop.toNat = d.index := by rw [stop_token]; rfl
      refine ⟨ne, Int.ofNat_le.mpr on.start, ?_, ?_⟩
      · rw [stop_token]
        exact Int.ofNat_le.mpr rest.toOnward.start
      · rw [behind, ← on.source]
        exact (extract_pending d).symm
    · obtain ⟨ne', start, stop, lexeme⟩ := ih mem
      have before : c.start ≤ d.skip.start := on.start.trans (Onward.skip d).start
      refine ⟨ne', Int.le_trans (Int.ofNat_le.mpr before) start, stop, ?_⟩
      rwa [source_skip, on.source] at lexeme

/-- The tokens stand one behind the other. -/
theorem pairwise (h : c.Passage tokens e) : tokens.Pairwise fun a b => a.stop ≤ b.start := by
  induction h with
  | onward => exact .nil
  | @token c d e kind tokens _ _ rest ih =>
    refine .cons (fun other mem => ?_) ih
    rw [stop_token]
    exact (rest.placed mem).2.1

end Passage

/-! ## Steps and runs -/

theorem passage_scan? {mode : Mode} {step : Step} (h : c.scan? mode = some step) :
    c.Passage step.tokens step.after := by
  unfold scan? at h
  split at h
  · cases h
  next x t ahead =>
  split at h
  · next kind further flaw scan =>
    cases h
    have ne : (c.advance (further + 1)).pending ≠ [] := by simp [Cursor.advance, ahead]
    exact .token (Onward.advance c _) ne (.onward (Onward.refl _))
  · cases h
    exact .onward (Onward.advance c _)

/-- A step goes on, from wherever it begins. -/
theorem passage_next (o : Options) (c : Cursor) :
    c.Passage (c.next o).tokens (c.next o).after := by
  refine .of_onward (Onward.skipWhitespace o.whitespace c) ?_
  rw [next]
  cases step : (c.skipWhitespace o.whitespace).scan? o.mode with
  | none => exact .onward (Onward.refl _)
  | some step => exact passage_scan? ‹_›

/-- So does a run. -/
theorem passage_run (o : Options) (c : Cursor) : c.Passage (c.run o).tokens (c.run o).after := by
  fun_induction Cursor.run o c with
  | case1 c token accepted d next ih =>
    have step := passage_next o c
    rw [next] at step
    exact step.append ih
  | case2 c fault d next | case3 c d next =>
    have step := passage_next o c
    rwa [next] at step

end Cursor

/-! ## Operations -/

namespace Lexer

/-- What a lexer can be asked for. -/
inductive Operation
  | peek (sets : List Text)
  | accept (sets : List Text)
  | scan
  | next
  | restart
  | lex
deriving DecidableEq

/-- What it answers: whether characters are there, one token or why there is none, all tokens or why
there are not, or nothing at all. -/
inductive Response
  | seen (seen : Bool)
  | one (answer : Answer)
  | all (answer : Except Fault (List Token))
  | done
deriving DecidableEq

def Answer.tokens : Answer → List Token
  | .token t => [t]
  | .refused _ => []
  | .finished => []

/-- The tokens returned. -/
def Response.tokens : Response → List Token
  | .seen _ => []
  | .one answer => answer.tokens
  | .all (.ok ts) => ts
  | .all (.error _) => []
  | .done => []

/-- The answer to an operation, and the lexer after it. -/
def perform (l : Lexer) : Operation → Response × Lexer
  | .peek sets => (.seen (l.peek sets), l)
  | .accept sets => (.seen (l.accept sets).1, (l.accept sets).2)
  | .scan => (.one l.scan.1, l.scan.2)
  | .next => (.one l.next.1, l.next.2)
  | .restart => (.done, l.restart)
  | .lex => (.all l.lex.1, l.lex.2)

/-- The answers to operations one after the other, and the lexer after them. -/
def session : List Operation → Lexer → List Response × Lexer
  | [], l => ([], l)
  | op :: ops, l =>
    ((l.perform op).1 :: (session ops (l.perform op).2).1, (session ops (l.perform op).2).2)

/-- A lookup falls outside the text when the operation is done by lookups. -/
def Operation.LooksOutside (l : Lexer) : Operation → Prop
  | .peek sets => Lookup.sees l.cursor 0 sets = .error .outside
  | .accept sets => Lookup.sees l.cursor 0 sets = .error .outside
  | .scan => Lookup.scan l.options.mode l.cursor = .error .outside
  | .next => l.streaming = true ∧ Lookup.next l.options l.cursor = .error .outside
  | .restart => False
  | .lex => Lookup.run l.options l.cursor = none

variable {l m : Lexer} {op : Operation} {ops : List Operation} {tokens others : List Token}

/-! ## What every operation preserves -/

/-- `l.Continues tokens m`: the lexer has gone on from `l` to `m` with the same settings on the same
text. The tokens have been given out on the way, and faults were added at the end of those accepted
before. -/
structure Continues (l : Lexer) (tokens : List Token) (m : Lexer) : Prop where
  options : m.options = l.options
  filename : m.filename = l.filename
  passage : l.cursor.Passage tokens m.cursor
  accepted : l.accepted <+: m.accepted

namespace Continues

theorem refl (l : Lexer) : l.Continues [] l :=
  ⟨rfl, rfl, .onward (Cursor.Onward.refl _), List.prefix_rfl⟩

theorem append {n : Lexer} (h : l.Continues tokens m) (h' : m.Continues others n) :
    l.Continues (tokens ++ others) n :=
  ⟨h'.options.trans h.options, h'.filename.trans h.filename, h.passage.append h'.passage,
    h.accepted.trans h'.accepted⟩

theorem source (h : l.Continues tokens m) : m.cursor.source = l.cursor.source :=
  h.passage.toOnward.source

/-- A fault is reported as before. -/
theorem report (h : l.Continues tokens m) : m.report = l.report := by
  funext fault
  rw [Lexer.report, Lexer.report, h.source, h.filename]

/-- The diagnostics grow at their end. -/
theorem diagnostics (h : l.Continues tokens m) : l.diagnostics <+: m.diagnostics := by
  rw [Lexer.diagnostics, Lexer.diagnostics, h.report]
  exact h.accepted.map _

end Continues

theorem continues_take {step : Step} (h : l.cursor.Passage step.tokens step.after) :
    l.Continues (l.take step).1.tokens (l.take step).2 := by
  cases step with
  | token token accepted d => exact ⟨rfl, rfl, h, List.prefix_append _ _⟩
  | refused fault d => exact ⟨rfl, rfl, h, List.prefix_rfl⟩
  | finished d => exact ⟨rfl, rfl, h, List.prefix_rfl⟩

theorem continues_accept (l : Lexer) (sets : List Text) : l.Continues [] (l.accept sets).2 := by
  unfold accept
  split
  · exact ⟨rfl, rfl, .onward (Cursor.Onward.advance _ _), List.prefix_rfl⟩
  · exact .refl l

theorem continues_scan (l : Lexer) : l.Continues l.scan.1.tokens l.scan.2 := by
  refine continues_take ?_
  cases found : l.cursor.scan? l.options.mode with
  | none => exact .onward (Cursor.Onward.refl _)
  | some step => exact Cursor.passage_scan? found

theorem continues_next (l : Lexer) : l.Continues l.next.1.tokens l.next.2 := by
  have taken := continues_take (Cursor.passage_next l.options l.cursor)
  have asked := l.asked_next
  generalize l.next.1 = answer, l.next.2 = m at asked ⊢
  cases asked with
  | closed => exact .refl l
  | token _ step =>
    rw [step] at taken
    exact taken
  | refused _ step | finished _ step =>
    rw [step] at taken
    exact ⟨taken.options, taken.filename, taken.passage, taken.accepted⟩

theorem continues_lex (l : Lexer) : l.Continues (Response.all l.lex.1).tokens l.lex.2 := by
  have run := Cursor.passage_run l.options l.cursor
  have passage : l.cursor.Passage (Response.all l.lex.1).tokens l.lex.2.cursor := by
    rw [lex]
    cases (l.cursor.run l.options).refusal with
    | none => exact run
    | some fault => exact .onward run.toOnward
  exact ⟨rfl, rfl, passage, List.prefix_append _ _⟩

/-- Whatever a lexer is asked for, it goes on. -/
theorem continues_perform (l : Lexer) (op : Operation) :
    l.Continues (l.perform op).1.tokens (l.perform op).2 := by
  cases op with
  | peek sets => exact .refl l
  | accept sets => exact continues_accept l sets
  | scan => exact continues_scan l
  | next => exact continues_next l
  | restart => exact ⟨rfl, rfl, .onward (Cursor.Onward.refl _), List.prefix_rfl⟩
  | lex => exact continues_lex l

/-- So it does in a whole session. -/
theorem continues_session (l : Lexer) (ops : List Operation) :
    l.Continues ((session ops l).1.flatMap Response.tokens) (session ops l).2 := by
  induction ops generalizing l with
  | nil => exact .refl l
  | cons op ops ih => exact (continues_perform l op).append (ih _)

/-! ## Looking ahead and lookups outside the text -/

/-- As many characters are there as sets they are seen to lie in. -/
theorem length_le_of_sees {sets : List Text} {t : Text} (h : sees sets t = true) :
    sets.length ≤ t.length := by
  fun_induction sees sets t with
  | case1 => exact Nat.zero_le _
  | case2 => cases h
  | case3 set sets c t ih =>
    rw [Bool.and_eq_true] at h
    exact Nat.succ_le_succ (ih h.2)

theorem accept_of_seen {sets : List Text} (h : (l.accept sets).1 = true) :
    (l.accept sets).2.cursor.index = l.cursor.index + sets.length ∧
      (l.accept sets).2.cursor.pending.length = l.cursor.pending.length + sets.length := by
  unfold accept at h ⊢
  split at h
  · next seen =>
    have le := length_le_of_sees seen
    rw [if_pos seen]
    refine ⟨?_, ?_⟩
    · rw [Cursor.index_advance, Nat.min_eq_left le]
    · simp only [Cursor.advance, List.length_append, List.length_take_of_le le]
  · cases h

theorem accept_of_not_seen {sets : List Text} (h : (l.accept sets).1 = false) :
    (l.accept sets).2 = l := by
  unfold accept at h ⊢
  split at h
  · cases h
  · next unseen => rw [if_neg unseen]

/-- The one operation that looks up a character outside the text is to scan at its end. -/
theorem looksOutside_iff : op.LooksOutside l ↔ op = .scan ∧ l.cursor.ahead = [] := by
  cases op with
  | peek sets | accept sets => simp [Operation.LooksOutside, Lookup.sees_eq]
  | scan =>
    simp only [Operation.LooksOutside, true_and]
    constructor
    · intro outside
      have step := Lookup.step?_scan l.options.mode l.cursor
      rw [outside] at step
      cases ahead : l.cursor.ahead with
      | nil => rfl
      | cons x t =>
        obtain ⟨found, eq⟩ := Lookup.exists_scan?_of_cons l.options.mode ahead
        rw [eq] at step
        cases step
    · exact Lookup.scan_nil
  | next =>
    have step := Lookup.step?_next l.options l.cursor
    refine ⟨fun outside => ?_, fun scan => nomatch scan.1⟩
    rw [outside.2] at step
    cases step
  | restart => exact ⟨False.elim, fun scan => nomatch scan.1⟩
  | lex => simp [Operation.LooksOutside, Lookup.run_eq]

/-- At the end of the text there is nothing to scan, and nothing changes. -/
theorem scan_of_nil (h : l.cursor.ahead = []) : l.scan.2 = l := by
  rw [scan, Cursor.scan?, h]
  rfl

/-! ## Sessions -/

/-- The place in the text, what is pending, and the diagnostics are the same. -/
structure Unchanged (l m : Lexer) : Prop where
  cursor : m.cursor = l.cursor
  diagnostics : m.diagnostics = l.diagnostics

theorem Unchanged.refl (l : Lexer) : l.Unchanged l := ⟨rfl, rfl⟩

/-- What an operation does to a lexer in front of the source.

* `pending_le`, `index_le`: the place is in the text or at its end, and what is pending before it.
* `forward`, `diagnostics`: it goes forward, and adds diagnostics at their end.
* `peek`, `unmatched`, `restart`, `outside`: looking ahead, characters that do not match, a new
  stream and a lookup outside the text change nothing.
* `matched`: for each set that matches one character is read, and is pending. -/
structure Effect (source : Text) (l : Lexer) (op : Operation) : Prop where
  pending_le : (l.perform op).2.cursor.pending.length ≤ (l.perform op).2.cursor.index
  index_le : (l.perform op).2.cursor.index ≤ source.length
  forward : l.cursor.index ≤ (l.perform op).2.cursor.index
  diagnostics : l.diagnostics <+: (l.perform op).2.diagnostics
  peek : ∀ sets, op = .peek sets → l.Unchanged (l.perform op).2
  unmatched : ∀ sets, op = .accept sets → (l.perform op).1 = .seen false →
    l.Unchanged (l.perform op).2
  restart : op = .restart → l.Unchanged (l.perform op).2
  outside : op.LooksOutside l → l.Unchanged (l.perform op).2
  matched : ∀ sets, op = .accept sets → (l.perform op).1 = .seen true →
    (l.perform op).2.cursor.index = l.cursor.index + sets.length ∧
      (l.perform op).2.cursor.pending.length = l.cursor.pending.length + sets.length

theorem effect_perform (l : Lexer) (op : Operation) : Effect l.cursor.source l op := by
  have continues := continues_perform l op
  refine ⟨Cursor.pending_le_index _, ?_, continues.passage.toOnward.index, continues.diagnostics,
    ?_, ?_, ?_, ?_, ?_⟩
  · rw [← continues.source]
    exact Cursor.index_le_length_source _
  · rintro sets rfl
    exact .refl l
  · rintro sets rfl answer
    show l.Unchanged (l.accept sets).2
    rw [accept_of_not_seen (Response.seen.inj answer)]
    exact .refl l
  · rintro rfl
    exact ⟨rfl, rfl⟩
  · intro outside
    obtain ⟨rfl, ahead⟩ := looksOutside_iff.mp outside
    show l.Unchanged l.scan.2
    rw [scan_of_nil ahead]
    exact .refl l
  · rintro sets rfl answer
    exact accept_of_seen (Response.seen.inj answer)

end Lexer

/-- A lexer keeps its state sound whatever it is asked for. After any operations, the next one has
the effects that it should have (`Lexer.Effect`), and the tokens returned so far are not empty, are
the pieces of the source that their offsets name, and stand one behind the other. -/
theorem lexer_sound_in_session (o : Options) (filename source : Text)
    (ops : List Lexer.Operation) :
    (∀ op, Lexer.Effect source (Lexer.session ops (Lexer.new o filename source)).2 op) ∧
    (∀ token ∈ (Lexer.session ops (Lexer.new o filename source)).1.flatMap Lexer.Response.tokens,
      token.lexeme ≠ [] ∧ 0 ≤ token.start ∧ token.stop ≤ source.length ∧
        token.lexeme = source.extract token.start.toNat token.stop.toNat) ∧
    ((Lexer.session ops (Lexer.new o filename source)).1.flatMap Lexer.Response.tokens).Pairwise
      fun a b => a.stop ≤ b.start := by
  have continues := Lexer.continues_session (Lexer.new o filename source) ops
  have same : (Lexer.session ops (Lexer.new o filename source)).2.cursor.source = source :=
    continues.source
  refine ⟨fun op => ?_, fun token mem => ?_, continues.passage.pairwise⟩
  · have effect := Lexer.effect_perform (Lexer.session ops (Lexer.new o filename source)).2 op
    rwa [same] at effect
  · obtain ⟨ne, start, stop, lexeme⟩ := continues.passage.placed mem
    have inside := (Lexer.session ops (Lexer.new o filename source)).2.cursor.start_le_length_source
    rw [same] at inside
    exact ⟨ne, start, Int.le_trans stop (Int.ofNat_le.mpr inside), lexeme⟩

/-- What a refused literal leaves pending leads the next lexeme. -/
example : (Lexer.session [.scan, .restart, .scan] (Lexer.new .standard [] "'ab".toList)).1 =
    [.one (.refused ⟨.unterminated .character, 0, 2⟩), .done,
      .one (.token ⟨.identifier, "'ab".toList, 0⟩)] := by
  decide +kernel

end Lexis
