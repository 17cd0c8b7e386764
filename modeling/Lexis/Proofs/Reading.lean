import Lexis.Lexer
import Mathlib.Data.List.TakeWhile

/-!
# Readings

A reading is what a run says about its text: the tokens, the faults accepted in them, and the fault
that ended it. The run also keeps the cursor; the reading does not, so it can be moved along
(`Reading.shift`) and rid of tokens of some sort (`Reading.without`), and the reading of a text is a
recursion on the text alone (`Options.read`).
All that is said about whole texts in the modules to come is said about readings.

Results:
1. `Cursor.reading_run`: a run that starts with nothing pending gives the reading of the text ahead,
   moved to where the cursor stands.
2. `Lexer.asked_next`: what can come of asking a stream for a token.
3. `Lexer.lex_new_eq_ok_iff`, `Lexer.lex_new_eq_error_iff`, `Lexer.diagnostics_lex_new`: a new lexer
   answers with the reading of its text.
-/

namespace Lexis

/-- The token of the same text moved `n` characters along. -/
def Token.shift (n : Nat) (t : Token) : Token := { t with start := n + t.start }

/-- What is read in a text. -/
structure Reading where
  tokens : List Token
  accepted : List Fault
  refusal : Option Fault
deriving DecidableEq, Repr

namespace Reading

/-- Nothing is read, since nothing is left. -/
def finished : Reading := ⟨[], [], none⟩

/-- Nothing is read before the fault. -/
def refused (fault : Fault) : Reading := ⟨[], [], some fault⟩

/-- The reading that a token comes before. -/
def cons (token : Token) (accepted : Option Fault) (r : Reading) : Reading :=
  ⟨token :: r.tokens, accepted.toList ++ r.accepted, r.refusal⟩

/-- The reading of the same text moved `n` characters along. -/
def shift (n : Nat) (r : Reading) : Reading :=
  ⟨r.tokens.map (Token.shift n), r.accepted.map (Fault.shift n), r.refusal.map (Fault.shift n)⟩

end Reading

/-! ## Moving along -/

@[simp] theorem Token.shift_zero : Token.shift 0 = id := by
  funext t
  simp [Token.shift]

@[simp] theorem Fault.shift_zero : Fault.shift 0 = id := by
  funext f
  simp [Fault.shift]

theorem Token.shift_shift (m n : Nat) (t : Token) : (t.shift n).shift m = t.shift (m + n) := by
  simp only [Token.shift, Token.mk.injEq, true_and]
  omega

theorem Fault.shift_shift (m n : Nat) (f : Fault) : (f.shift n).shift m = f.shift (m + n) := by
  simp only [Fault.shift, Fault.mk.injEq, true_and]
  omega

@[simp] theorem Flaw.shift_place (n start : Nat) (flaw : Flaw) :
    (flaw.place start).shift n = flaw.place (n + start) :=
  (Flaw.place_add n start flaw).symm

namespace Reading

@[simp] theorem shift_zero (r : Reading) : r.shift 0 = r := by
  simp [shift]

@[simp] theorem shift_shift (m n : Nat) (r : Reading) : (r.shift n).shift m = r.shift (m + n) := by
  simp [shift, Function.comp_def, Token.shift_shift, Fault.shift_shift]

@[simp] theorem shift_finished (n : Nat) : finished.shift n = finished := rfl

@[simp] theorem shift_cons (n : Nat) (t : Token) (f : Option Fault) (r : Reading) :
    (r.cons t f).shift n = (r.shift n).cons (t.shift n) (f.map (Fault.shift n)) := by
  cases f <;> simp [shift, cons]

/-! ## Leaving tokens out -/

/-- The reading without the tokens of some sort. -/
def without (sort : Token → Bool) (r : Reading) : Reading :=
  { r with tokens := r.tokens.filter fun t => !sort t }

variable {sort : Token → Bool} {t : Token}

/-- If a token is of the sort wherever it stands, it may be left out before moving along or after. -/
theorem without_shift (everywhere : ∀ n t, sort (Token.shift n t) = sort t) (n : Nat) (r : Reading) :
    (r.shift n).without sort = (r.without sort).shift n := by
  simp [without, shift, List.filter_map, Function.comp_def, everywhere]

theorem without_cons_of_pos (h : sort t = true) (r : Reading) :
    (r.cons t none).without sort = r.without sort := by
  simp [without, cons, h]

theorem without_cons_of_neg (h : sort t = false) (f : Option Fault) (r : Reading) :
    (r.cons t f).without sort = (r.without sort).cons t f := by
  simp [without, cons, h]

end Reading

/-! ## The reading of a text -/

namespace Options

/-- The same settings in another mode. -/
def inMode (o : Options) (mode : Mode) : Options := { o with mode }

/-- The reading of a text, character by character and token by token. -/
def read (o : Options) : Text → Reading
  | [] => .finished
  | c :: t =>
    if c ∈ o.whitespace then (o.read t).shift 1
    else
      match Scan.ofText o.mode c t with
      | .token kind further flaw =>
        ((o.read (t.drop further)).shift (further + 1)).cons
          ⟨kind, (c :: t).take (further + 1), 0⟩ (flaw.map (Flaw.place 0))
      | .refused flaw => .refused (flaw.place 0)
termination_by t => t.length
decreasing_by all_goals simp only [List.length_cons, List.length_drop]; omega

variable {o : Options} {c : Char} {t : Text}

@[simp] theorem read_nil (o : Options) : o.read [] = .finished := by
  rw [read]

theorem read_white (h : c ∈ o.whitespace) : o.read (c :: t) = (o.read t).shift 1 := by
  rw [read, if_pos h]

theorem read_token {kind : Kind} {further : Nat} {flaw : Option Flaw} (h : c ∉ o.whitespace)
    (scan : Scan.ofText o.mode c t = .token kind further flaw) :
    o.read (c :: t) = ((o.read (t.drop further)).shift (further + 1)).cons
      ⟨kind, (c :: t).take (further + 1), 0⟩ (flaw.map (Flaw.place 0)) := by
  rw [read, if_neg h, scan]

theorem read_refused {flaw : Flaw} (h : c ∉ o.whitespace)
    (scan : Scan.ofText o.mode c t = .refused flaw) :
    o.read (c :: t) = .refused (flaw.place 0) := by
  rw [read, if_neg h, scan]

/-- The reading of a text is that of what stands behind the whitespace in front. -/
theorem read_dropWhile (o : Options) (t : Text) :
    o.read t = (o.read (t.dropWhile (· ∈ o.whitespace))).shift
      (t.takeWhile (· ∈ o.whitespace)).length := by
  induction t with
  | nil => simp
  | cons c t ih =>
    by_cases h : c ∈ o.whitespace
    · rw [read_white h, ih]
      simp [h, Nat.add_comm]
    · simp [h]

/-- What stands behind the whitespace in front is not skipped. -/
theorem not_mem_of_dropWhile {whitespace u : Text} (h : t.dropWhile (· ∈ whitespace) = c :: u) :
    c ∉ whitespace := by
  have black := List.head?_dropWhile_not (fun x => decide (x ∈ whitespace)) t
  rw [h] at black
  simpa using black

theorem ne_space_of_not_mem (h : c ∉ o.whitespace) : c ≠ ' ' := by
  rintro rfl
  exact h o.space_mem

end Options

/-! ## Induction along a reading -/

/-- Induction along a reading: a text is empty, or begins with a character that is skipped, with a
token or with a literal that is refused. -/
theorem Options.read_induction {motive : Text → Prop} (o : Options) (nil : motive [])
    (white : ∀ c t, c ∈ o.whitespace → motive t → motive (c :: t))
    (token : ∀ c t kind further flaw, c ∉ o.whitespace →
      Scan.ofText o.mode c t = .token kind further flaw → further ≤ t.length →
      motive (t.drop further) → motive (c :: t))
    (refused : ∀ c t flaw, c ∉ o.whitespace → Scan.ofText o.mode c t = .refused flaw →
      flaw.depth ≤ t.length + 1 → motive (c :: t))
    (t : Text) : motive t := by
  fun_induction o.read t with
  | case1 => exact nil
  | case2 c t h ih => exact white c t h ih
  | case3 c t h kind further flaw scan ih =>
    exact token c t kind further flaw h scan (Scan.further_le_of_token scan) ih
  | case4 c t h flaw scan =>
    exact refused c t flaw h scan (Scan.depth_le_of_refused scan)

/-- Each token of a reading is what the rule for its first character gives out at its place. -/
theorem Options.exists_scan_of_mem {o : Options} {t : Text} {token : Token}
    (mem : token ∈ (o.read t).tokens) :
    ∃ before c u n flaw, t = before ++ c :: u ∧ c ∉ o.whitespace ∧
      Scan.ofText o.mode c u = .token token.kind n flaw ∧
      token.lexeme = (c :: u).take (n + 1) ∧ token.start = before.length := by
  induction t using o.read_induction generalizing token with
  | nil =>
    rw [read_nil] at mem
    exact absurd mem List.not_mem_nil
  | white c t white ih =>
    rw [read_white white] at mem
    obtain ⟨unmoved, among, rfl⟩ := List.mem_map.mp mem
    obtain ⟨before, d, u, n, flaw, rfl, black, scan, lexeme, start⟩ := ih among
    refine ⟨c :: before, d, u, n, flaw, rfl, black, scan, lexeme, ?_⟩
    rw [Token.shift, start, List.length_cons, Nat.add_comm]
    exact (Int.natCast_add 1 _).symm
  | token c t kind further flaw black scan le ih =>
    rw [read_token black scan] at mem
    rcases List.mem_cons.mp mem with rfl | mem
    · exact ⟨[], c, t, further, flaw, rfl, black, scan, rfl, rfl⟩
    · obtain ⟨unmoved, among, rfl⟩ := List.mem_map.mp mem
      obtain ⟨before, d, u, n, flaw, rest, black, scan, lexeme, start⟩ := ih among
      refine ⟨c :: t.take further ++ before, d, u, n, flaw, ?_, black, scan, lexeme, ?_⟩
      · rw [List.append_assoc, ← rest, List.cons_append, List.take_append_drop]
      · rw [Token.shift, start, List.length_append, List.length_cons, List.length_take_of_le le]
        exact (Int.natCast_add _ _).symm
  | refused c t flaw black scan =>
    rw [read_refused black scan] at mem
    exact absurd mem List.not_mem_nil

/-! ## Runs and their readings -/

/-- What a run says about its text. -/
def Run.reading (run : Run) : Reading := ⟨run.tokens, run.accepted, run.refusal⟩

@[simp] theorem Run.reading_cons (t : Token) (f : Option Fault) (run : Run) :
    (run.cons t f).reading = run.reading.cons t f := rfl

/-- Where the cursor stands after a step. -/
def Step.after : Step → Cursor
  | .token _ _ d => d
  | .refused _ d => d
  | .finished d => d

namespace Cursor

variable {o : Options} {c : Cursor}

theorem ahead_skipWhitespace (whitespace : Text) (c : Cursor) :
    (c.skipWhitespace whitespace).ahead = c.ahead.dropWhile (· ∈ whitespace) := by
  have split := List.takeWhile_append_dropWhile (p := (· ∈ whitespace)) (l := c.ahead)
  unfold skipWhitespace
  cases run : c.ahead.takeWhile (· ∈ whitespace) with
  | nil =>
    rw [run, List.nil_append] at split
    exact split.symm
  | cons x t =>
    rw [run] at split
    have dropped : (x :: t ++ c.ahead.dropWhile (· ∈ whitespace)).drop (x :: t).length =
        c.ahead.dropWhile (· ∈ whitespace) := List.drop_left
    rwa [split] at dropped

theorem not_mem_of_skipWhitespace {whitespace t : Text} {x : Char}
    (h : (c.skipWhitespace whitespace).ahead = x :: t) : x ∉ whitespace :=
  Options.not_mem_of_dropWhile ((ahead_skipWhitespace whitespace c).symm.trans h)

theorem skipWhitespace_of_pending_nil (whitespace : Text) (h : c.pending = []) :
    (c.skipWhitespace whitespace).pending = [] ∧
    (c.skipWhitespace whitespace).start = c.start + (c.ahead.takeWhile (· ∈ whitespace)).length ∧
    (c.skipWhitespace whitespace).ahead = c.ahead.dropWhile (· ∈ whitespace) := by
  have le := (List.takeWhile_prefix (· ∈ whitespace) (l := c.ahead)).length_le
  refine ⟨?_, ?_, ahead_skipWhitespace whitespace c⟩ <;> unfold skipWhitespace
  · split
    · exact h
    · rfl
  · split
    · next run => rw [run, List.length_nil, Nat.add_zero]
    · next run =>
      simp only [skip, advance, h, List.nil_append, List.length_take]
      omega

/-- A token is refused where the rule that applies to the text ahead says so. -/
theorem exists_of_scan?_refused {mode : Mode} {fault : Fault} {d : Cursor}
    (h : c.scan? mode = some (.refused fault d)) :
    ∃ x t flaw, c.ahead = x :: t ∧ Scan.ofText mode x t = .refused flaw ∧
      fault = flaw.place c.index ∧ d = c.advance flaw.depth := by
  unfold scan? at h
  split at h
  · cases h
  next x t ahead =>
  split at h
  · cases h
  · next flaw scan =>
    cases h
    exact ⟨x, t, flaw, ahead, scan, rfl, rfl⟩

theorem scan?_of_pending_nil (mode : Mode) (h : c.pending = []) :
    c.scan? mode = match c.ahead with
      | [] => none
      | x :: t =>
        some (match Scan.ofText mode x t with
          | .token kind further flaw =>
            .token ⟨kind, (x :: t).take (further + 1), c.start⟩ (flaw.map (Flaw.place c.start))
              (c.advance (further + 1)).skip
          | .refused flaw => .refused (flaw.place c.start) (c.advance flaw.depth)) := by
  have index : c.index = c.start := by simp [index, h]
  unfold scan?
  rw [index]
  cases ahead : c.ahead with
  | nil => rfl
  | cons x t =>
    cases scan : Scan.ofText mode x t with
    | token kind further flaw => simp [Cursor.token, advance, h, ahead, scan]
    | refused flaw => simp [scan]

/-- A step that finds the text used up leaves nothing ahead. -/
theorem ahead_of_next_finished {d : Cursor} (h : c.next o = .finished d) : d.ahead = [] := by
  rw [next, scan?] at h
  split at h
  · next nil =>
    cases h
    exact nil
  · split at h <;> cases h

theorem advance_skip_start (h : c.pending = []) {n : Nat} (le : n ≤ c.ahead.length) :
    (c.advance n).skip.start = c.start + n := by
  simp only [skip, advance, h, List.nil_append, List.length_take]
  omega

/-- What one step gives, with nothing pending before it. -/
theorem next_of_pending_nil (o : Options) (h : c.pending = []) :
    ∃ d : Cursor, d.pending = [] ∧
      d.start = c.start + (c.ahead.takeWhile (· ∈ o.whitespace)).length ∧
      d.ahead = c.ahead.dropWhile (· ∈ o.whitespace) ∧
      c.next o = match d.ahead with
        | [] => .finished d
        | x :: t =>
          match Scan.ofText o.mode x t with
          | .token kind further flaw =>
            .token ⟨kind, (x :: t).take (further + 1), d.start⟩ (flaw.map (Flaw.place d.start))
              (d.advance (further + 1)).skip
          | .refused flaw => .refused (flaw.place d.start) (d.advance flaw.depth) := by
  obtain ⟨pending, start, ahead⟩ := skipWhitespace_of_pending_nil o.whitespace h
  refine ⟨c.skipWhitespace o.whitespace, pending, start, ahead, ?_⟩
  simp only [next]
  rw [scan?_of_pending_nil o.mode pending]
  cases (c.skipWhitespace o.whitespace).ahead <;> rfl

theorem run_eq_next (o : Options) (c : Cursor) :
    c.run o = match c.next o with
      | .token token accepted d => (d.run o).cons token accepted
      | .refused fault d => ⟨[], [], some fault, d⟩
      | .finished d => ⟨[], [], none, d⟩ := by
  rw [Cursor.run]
  split <;> simp [*]

/-- A run that starts with nothing pending gives the reading of the text ahead, moved to where the
cursor stands. -/
theorem reading_run (o : Options) (c : Cursor) (h : c.pending = []) :
    (c.run o).reading = (o.read c.ahead).shift c.start := by
  obtain ⟨e, pending, start, ahead, next⟩ := next_of_pending_nil o h
  have le : e.ahead.length ≤ c.ahead.length := by
    rw [ahead]
    exact (List.dropWhile_suffix _).length_le
  -- the step drops the whitespace itself, so the two are compared behind it
  rw [o.read_dropWhile, Reading.shift_shift, ← ahead, ← start, run_eq_next, next]
  cases text : e.ahead with
  | nil => simp [Run.reading, Reading.finished, Reading.shift]
  | cons x t =>
    have black : x ∉ o.whitespace := Options.not_mem_of_dropWhile (ahead.symm.trans text)
    cases scan : Scan.ofText o.mode x t with
    | refused flaw =>
      rw [Options.read_refused black scan]
      simp [scan, Run.reading, Reading.refused, Reading.shift]
    | token kind further flaw =>
      have fits := Nat.succ_le_succ (Scan.further_le_of_token scan)
      have rest := reading_run o (e.advance (further + 1)).skip rfl
      rw [advance_skip_start pending (by simpa only [text, List.length_cons] using fits)] at rest
      rw [Options.read_token black scan, Reading.shift_cons, Reading.shift_shift]
      rw [ahead_skip, ahead_advance, text, List.drop_succ_cons] at rest
      simp only [scan]
      rw [Run.reading_cons, rest]
      simp [Token.shift, Function.comp_def]
termination_by c.ahead.length
decreasing_by
  simp only [ahead_skip, ahead_advance, List.length_drop]
  have : 0 < e.ahead.length := by simp [text]
  omega

theorem source_next (o : Options) (c : Cursor) : (c.next o).after.source = c.source := by
  have skipped : (c.skipWhitespace o.whitespace).source = c.source := by
    unfold skipWhitespace
    split <;> simp
  simp only [next, scan?]
  split
  · exact skipped
  · split <;> simp [Step.after, skipped]

theorem source_run (o : Options) (c : Cursor) : (c.run o).after.source = c.source := by
  fun_induction Cursor.run o c with
  | case1 c token accepted d next ih =>
    have step := source_next o c
    rw [next] at step
    exact ih.trans step
  | case2 c fault d next | case3 c d next =>
    have step := source_next o c
    rwa [next] at step

end Cursor

/-! ## Asking a stream for tokens -/

/-- `l.Asked answer m`: all that can come of asking a lexer for the next token of its stream.

* `closed`: a closed stream is finished, and nothing changes.
* `token`: a token is given out, its fault is accepted, and the stream stays open.
* `refused`, `finished`: the stream is closed where the step has come to. -/
inductive Lexer.Asked : Lexer → Lexer.Answer → Lexer → Prop
  | closed {l : Lexer} : l.streaming = false → Asked l .finished l
  | token {l : Lexer} {token : Token} {accepted : Option Fault} {d : Cursor} :
      l.streaming = true → l.cursor.next l.options = .token token accepted d →
      Asked l (.token token) { l with cursor := d, accepted := l.accepted ++ accepted.toList }
  | refused {l : Lexer} {fault : Fault} {d : Cursor} :
      l.streaming = true → l.cursor.next l.options = .refused fault d →
      Asked l (.refused fault) { l with cursor := d, streaming := false }
  | finished {l : Lexer} {d : Cursor} :
      l.streaming = true → l.cursor.next l.options = .finished d →
      Asked l .finished { l with cursor := d, streaming := false }

theorem Lexer.asked_next (l : Lexer) : l.Asked l.next.1 l.next.2 := by
  rw [next]
  split
  · next streaming =>
    cases step : l.cursor.next l.options with
    | token token accepted d => exact .token streaming step
    | refused fault d => exact .refused streaming step
    | finished d => exact .finished streaming step
  · next closed => exact .closed (Bool.eq_false_iff.mpr closed)

theorem Lexer.asked_of_next {l m : Lexer} {answer : Answer} (h : l.next = (answer, m)) :
    l.Asked answer m := by
  have asked := l.asked_next
  rwa [h] at asked

/-! ## Lexers in front of a text -/

theorem lex_reading (o : Options) (source : Text) : (lex o source).reading = o.read source := by
  have run := Cursor.reading_run o (Cursor.ofText source) rfl
  rwa [show (Cursor.ofText source).start = 0 from rfl, Reading.shift_zero] at run

namespace Lexer

variable (o : Options) (filename source : Text)

theorem lex_new : ((new o filename source).lex).1 =
    match (o.read source).refusal with
    | some fault => .error fault
    | none => .ok (o.read source).tokens := by
  rw [← lex_reading]
  rfl

/-- A new lexer answers with tokens if the reading is not refused. -/
theorem lex_new_eq_ok_iff {tokens : List Token} : ((new o filename source).lex).1 = .ok tokens ↔
    (o.read source).refusal = none ∧ (o.read source).tokens = tokens := by
  rw [lex_new]
  cases (o.read source).refusal <;> simp

/-- A new lexer answers with the fault that ended the reading. -/
theorem lex_new_eq_error_iff {fault : Fault} : ((new o filename source).lex).1 = .error fault ↔
    (o.read source).refusal = some fault := by
  rw [lex_new]
  cases (o.read source).refusal <;> simp

/-- What a new lexer reports after lexing are faults of its text. -/
theorem report_lex_new (fault : Fault) :
    (new o filename source).lex.2.report fault = fault.report source filename := by
  have same : ((Cursor.ofText source).run o).after.source = source :=
    Cursor.source_run o (Cursor.ofText source)
  show fault.report ((Cursor.ofText source).run o).after.source filename = _
  rw [same]

/-- A new lexer keeps the faults accepted in the reading. -/
theorem diagnostics_lex_new : (new o filename source).lex.2.diagnostics =
    (o.read source).accepted.map (Fault.report source filename) := by
  rw [← lex_reading]
  exact List.map_congr_left fun fault _ => report_lex_new o filename source fault

end Lexer

end Lexis
