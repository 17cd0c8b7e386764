import Lexis.Proofs.Session

/-!
# What a refusal leaves behind

A rule is refused in one of many places: right behind a quote, behind a backslash, at a line end, at
the end of the text. The place is given by the index of the cursor, or by the length of the text,
whichever comes to hand. In each case it is where the cursor stands, for nothing is read of a
character that is to be blamed, and at the end of the text there is nothing left to read. What has
been read up to there stays pending, behind what was pending before, and nothing else changes.

Results:
1. `Cursor.stopped_of_scan?_refused`: where a refusal leaves a cursor.
   `Lookup.scan_of_scan?_refused`: the rule that looks up its characters one by one leaves it there.
2. `Lexer.stopped_of_scan`: what a refusal leaves of a lexer.
3. `scan_stops_at_fault`: this for a lexer that has been used in any way.
-/

namespace Lexis

namespace Cursor

variable {mode : Mode} {c d : Cursor} {fault : Fault}

/-- A refusal leaves a cursor at the place to be blamed. What has been read is pending. -/
theorem stopped_of_scan?_refused (h : c.scan? mode = some (.refused fault d)) :
    d.index = fault.offset ∧ c.index ≤ fault.offset ∧ fault.start = c.index ∧
      d.start = c.start ∧
      d.pending = c.pending ++ c.source.extract c.index fault.offset := by
  obtain ⟨x, t, flaw, ahead, scan, rfl, rfl⟩ := exists_of_scan?_refused h
  have le : flaw.depth ≤ c.ahead.length := by
    rw [ahead]
    exact Scan.depth_le_of_refused scan
  refine ⟨?_, Nat.le_add_right _ _, rfl, rfl, ?_⟩
  · rw [index_advance, Nat.min_eq_left le]
    rfl
  · show c.pending ++ c.ahead.take flaw.depth =
      c.pending ++ c.source.extract c.index (c.index + flaw.depth)
    rw [List.extract_eq_take_drop, drop_index_source, Nat.add_sub_cancel_left]

end Cursor

theorem Lookup.scan_of_scan?_refused {mode : Mode} {c d : Cursor} {fault : Fault}
    (h : c.scan? mode = some (.refused fault d)) : scan mode c = .error (.refused fault d) := by
  obtain ⟨x, t, flaw, ahead, refused, rfl, rfl⟩ := Cursor.exists_of_scan?_refused h
  rw [scan_eq ahead, refused]
  rfl

namespace Lexer

variable {l m : Lexer} {fault : Fault}

/-- What a refusal leaves of a lexer in front of the source.

* `offset`, `forward`: the lexer stands at the place that is reported, and has not gone back.
* `start`, `pending`: all that has been read is pending, behind what was pending before.
* `diagnostics`: the refusal is not among the diagnostics.
* `opened`: a literal that is not closed is reported to begin where the lexer stood. -/
structure Stopped (source : Text) (l : Lexer) (fault : Fault) (m : Lexer) : Prop where
  offset : (m.report fault).offset = m.cursor.index
  forward : l.cursor.index ≤ m.cursor.index
  start : m.cursor.index - m.cursor.pending.length = l.cursor.index - l.cursor.pending.length
  pending : m.cursor.pending = l.cursor.pending ++ source.extract l.cursor.index m.cursor.index
  diagnostics : m.diagnostics = l.diagnostics
  opened : ∀ literal opened, (m.report fault).complaint = .unterminated literal opened →
    opened = l.cursor.index

theorem scan?_of_scan_refused (h : l.scan = (.refused fault, m)) :
    l.cursor.scan? l.options.mode = some (.refused fault m.cursor) ∧ m.accepted = l.accepted := by
  rw [scan] at h
  cases found : l.cursor.scan? l.options.mode with
  | none =>
    rw [found] at h
    cases h
  | some step =>
    rw [found, Option.getD_some] at h
    cases step with
    | token token accepted d => cases h
    | refused fault d =>
      cases h
      exact ⟨rfl, rfl⟩
    | finished d => cases h

theorem stopped_of_scan (h : l.scan = (.refused fault, m)) :
    Stopped l.cursor.source l fault m := by
  have continues := continues_scan l
  rw [h] at continues
  obtain ⟨refused, accepted⟩ := scan?_of_scan_refused h
  obtain ⟨index, forward, start, before, pending⟩ := Cursor.stopped_of_scan?_refused refused
  rw [← index] at forward pending
  refine ⟨?_, forward, ?_, pending, ?_, fun literal opened complaint => ?_⟩
  · exact congrArg Nat.cast index.symm
  · rw [Cursor.index, Cursor.index, Nat.add_sub_cancel, Nat.add_sub_cancel, before]
  · rw [diagnostics, diagnostics, continues.report, accepted]
  · rw [Fault.opened_of_complaint complaint, start]

end Lexer

/-- A refusal stops a lexer at the character that is reported, and nothing is forgotten
(`Lexer.Stopped`), whatever the lexer has been used for before and whatever is pending. The rule
that looks up its characters one by one is refused with the same fault, and stands at the same
place. -/
theorem scan_stops_at_fault (o : Options) (filename source : Text) (ops : List Lexer.Operation)
    (l m : Lexer) (fault : Fault)
    (reached : (Lexer.session ops (Lexer.new o filename source)).2 = l)
    (refused : l.scan = (.refused fault, m)) :
    Lookup.scan o.mode l.cursor = .error (.refused fault m.cursor) ∧
      Lexer.Stopped source l fault m := by
  have continues := Lexer.continues_session (Lexer.new o filename source) ops
  rw [reached] at continues
  have mode : l.options.mode = o.mode := congrArg Options.mode continues.options
  have same : l.cursor.source = source := continues.source
  have stopped := Lexer.stopped_of_scan refused
  rw [same] at stopped
  refine ⟨?_, stopped⟩
  rw [← mode]
  exact Lookup.scan_of_scan?_refused (Lexer.scan?_of_scan_refused refused).1

/-- Two characters of a name are pending when a string begins that ends with the text, behind a
backslash. -/
theorem scan_stops_at_fault_pending :
    let l := (Lexer.session [.accept [['a'], ['b']]] (Lexer.new .standard [] "ab\"c\\".toList)).2
    let fault : Fault := ⟨.unterminated .string, 2, 5⟩
    l.scan.1 = .refused fault ∧ l.scan.2.cursor.pending = "ab\"c\\".toList ∧
      Lexer.Stopped "ab\"c\\".toList l fault l.scan.2 := by
  intro l fault
  have refused : l.scan = (.refused fault, l.scan.2) := Prod.ext (by decide +kernel) rfl
  have stopped := scan_stops_at_fault .standard [] "ab\"c\\".toList [.accept [['a'], ['b']]]
    l l.scan.2 fault rfl refused
  exact ⟨congrArg Prod.fst refused, by decide +kernel, stopped.2⟩

end Lexis
