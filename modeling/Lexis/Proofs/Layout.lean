import Lexis.Proofs.Quoting
import Lexis.Proofs.Reading

/-!
# The layout of reports

A report is written in three or four lines: the place with the description, the line of the source,
the caret, and the hint if there is one (`Report.layout`). What it shows of the source stays on its
line, since characters are shown between quotes and the line of the source ends where it ends. There
is one exception: the character that makes no escape with the backslash before it is put into the
description as it is, and if it is a line feed, the description takes two lines.

Results:
1. `Fault.lines_report`: the lines of the report of a fault are those of the layout.
2. `Fault.newline_mem_description_iff`: the descriptions that take two lines.
3. `lex_report_layout`: the text of a report that lexing gives, and the lines it splits into.
   `lex_report_layout_line_feed`: the exception.
-/

namespace Lexis

/-- The lines of a report: the place and the description, the line of the source, the caret under
the column, and the hint if there is one. -/
def Report.layout (place : Location) (description line : Text) (hint : Option Text) : List Text :=
  [place.filename ++ ':' :: Text.ofInt place.line ++ ':' :: Text.ofInt place.column ++
      ": error: ".toList ++ description,
    "    ".toList ++ line,
    List.replicate (4 + place.column - 1).toNat ' ' ++ ['^']] ++
  hint.toList.map ("hint: ".toList ++ ·)

/-! ## Texts without line feeds -/

namespace Text

theorem newline_not_mem_of_isPrintable {t : Text} (printable : ∀ c ∈ t, isPrintable c = true) :
    '\n' ∉ t := fun mem => by
  cases isPrintable_newline.symm.trans (printable _ mem)

@[simp] theorem newline_not_mem_ofInt (n : Int) : '\n' ∉ ofInt n :=
  newline_not_mem_of_isPrintable fun _ => isPrintable_of_mem_ofInt

@[simp] theorem newline_not_mem_quoted (t : Text) : '\n' ∉ quoted t :=
  newline_not_mem_of_isPrintable fun _ => isPrintable_of_mem_quoted

/-- Lines that are written one under the other are found again. -/
theorem splitOn_joinLines {lines : List Text} (plain : ∀ line ∈ lines, '\n' ∉ line)
    (ne : lines ≠ []) : (joinLines lines).splitOn '\n' = lines :=
  List.splitOn_intercalate '\n' plain ne

/-- A line feed within a line makes two lines of it. -/
theorem joinLines_cons_newline (a b : Text) (lines : List Text) :
    joinLines ((a ++ '\n' :: b) :: lines) = joinLines (a :: b :: lines) := by
  cases lines <;> simp [joinLines]

end Text

theorem Location.newline_not_mem_lineSoFar (before : Text) : '\n' ∉ lineSoFar before := by
  intro mem
  simpa using List.mem_takeWhile_imp (List.mem_reverse.mp mem)

theorem newline_not_mem_withoutReturns {line : Text} (plain : '\n' ∉ line) :
    '\n' ∉ withoutReturns line := by
  intro mem
  have within := (List.dropWhile_sublist _).subset (List.mem_reverse.mp mem)
  exact plain (List.mem_reverse.mp within)

/-- The line of the source is one line. -/
theorem newline_not_mem_sourceLine (source : Text) (offset : Int) :
    '\n' ∉ sourceLine source offset := by
  refine newline_not_mem_withoutReturns fun mem => ?_
  rcases List.mem_append.mp mem with before | behind
  · exact Location.newline_not_mem_lineSoFar _ before
  · simpa using List.mem_takeWhile_imp behind

/-! ## What a report says -/

theorem Text.isPrintable_of_all {t : Text} {c : Char} (printable : t.all isPrintable = true)
    (h : c ∈ t) : isPrintable c = true :=
  List.all_eq_true.mp printable c h

theorem Complaint.isPrintable_of_mem_characterText {c x : Char} (h : x ∈ characterText c) :
    Text.isPrintable x = true := by
  simp only [characterText, List.mem_append] at h
  rcases h with ((quoted | frame) | digits) | frame
  · exact Text.isPrintable_of_mem_quoted quoted
  · exact Text.isPrintable_of_all (by decide) frame
  · obtain ⟨y, digit, rfl⟩ := List.mem_map.mp digits
    obtain ⟨d, rfl⟩ := Text.exists_digitChar_of_mem_ofNatHex digit
    exact (Text.isPrintable_digitChar d).2
  · exact Text.isPrintable_of_all (by decide) frame

theorem Literal.isPrintable_of_mem_name {literal : Literal} {c : Char} (h : c ∈ literal.name) :
    Text.isPrintable c = true := by
  cases literal <;> exact Text.isPrintable_of_all (by decide) h

namespace Fault

variable (fault : Fault)

/-- A description is printable, but for the character that makes no escape. -/
theorem isPrintable_of_mem_description {c : Char}
    (other : ∀ letter, fault.cause ≠ .invalidEscape letter)
    (h : c ∈ fault.complaint.description) : Text.isPrintable c = true := by
  obtain ⟨cause, start, offset⟩ := fault
  -- two of the descriptions show a character and say where it stands
  have character {context : Text} {x : Char} (plain : context.all Text.isPrintable = true)
      (h : c ∈ "unexpected character ".toList ++ Complaint.characterText x ++ context) :
      Text.isPrintable c = true := by
    rcases List.mem_append.mp h with front | behind
    · rcases List.mem_append.mp front with frame | character
      · exact Text.isPrintable_of_all (by decide) frame
      · exact Complaint.isPrintable_of_mem_characterText character
    · exact Text.isPrintable_of_all plain behind
  cases cause with
  | unterminated literal =>
    rcases List.mem_append.mp h with front | frame
    · rcases List.mem_append.mp front with frame | name
      · exact Text.isPrintable_of_all (by decide) frame
      · exact Literal.isPrintable_of_mem_name name
    · exact Text.isPrintable_of_all (by decide) frame
  | invalidEscape letter => exact absurd rfl (other letter)
  | rawControl control => exact character (by decide) h
  | emptyCharacter =>
    change c ∈ "empty character literal".toList at h
    exact Text.isPrintable_of_all (by decide) h
  | noToken char => exact character (by decide) h

/-- A description takes two lines if a line feed stands where an escape should be completed. -/
theorem newline_mem_description_iff :
    '\n' ∈ fault.complaint.description ↔ fault.complaint = .invalidEscape ['\n'] := by
  obtain ⟨cause, start, offset⟩ := fault
  have plain (other : ∀ letter, cause ≠ .invalidEscape letter) :=
    Text.newline_not_mem_of_isPrintable fun _ =>
      isPrintable_of_mem_description ⟨cause, start, offset⟩ other
  cases cause with
  | invalidEscape letter =>
    show '\n' ∈ "invalid escape sequence '\\".toList ++ [letter] ++ "'".toList ↔ _
    simp [complaint, eq_comm]
  | unterminated literal =>
    exact iff_of_false (plain fun _ => Cause.noConfusion) Complaint.noConfusion
  | rawControl control =>
    exact iff_of_false (plain fun _ => Cause.noConfusion) Complaint.noConfusion
  | emptyCharacter =>
    exact iff_of_false (plain fun _ => Cause.noConfusion) Complaint.noConfusion
  | noToken char =>
    exact iff_of_false (plain fun _ => Cause.noConfusion) Complaint.noConfusion

/-- A hint is printable. -/
theorem isPrintable_of_mem_hint {hint : Text} {c : Char} (h : fault.complaint.hint = some hint)
    (mem : c ∈ hint) : Text.isPrintable c = true := by
  obtain ⟨cause, start, offset⟩ := fault
  cases cause with
  | unterminated literal =>
    cases h
    simp only [List.mem_append] at mem
    rcases mem with (((((frame | quoted) | frame) | name) | frame) | numeral) | frame
    · exact Text.isPrintable_of_all (by decide) frame
    · exact Text.isPrintable_of_mem_quoted quoted
    · exact Text.isPrintable_of_all (by decide) frame
    · exact Literal.isPrintable_of_mem_name name
    · exact Text.isPrintable_of_all (by decide) frame
    · exact Text.isPrintable_of_mem_ofInt numeral
    · exact Text.isPrintable_of_all (by decide) frame
  | invalidEscape letter | emptyCharacter =>
    cases h
    exact Text.isPrintable_of_all (by decide) mem
  | rawControl control | noToken char => cases h

theorem newline_not_mem_hint {hint : Text} (h : fault.complaint.hint = some hint) :
    '\n' ∉ hint :=
  Text.newline_not_mem_of_isPrintable fun _ => fault.isPrintable_of_mem_hint h

theorem hint_ne_nil : fault.complaint.hint ≠ some [] := by
  obtain ⟨cause, start, offset⟩ := fault
  cases cause <;> simp [complaint, Complaint.hint]

end Fault

namespace Report

theorem hintLine_eq {r : Report} (ne : r.hint ≠ some []) :
    r.hintLine = r.hint.toList.map ("hint: ".toList ++ ·) := by
  unfold hintLine
  cases hint : r.hint with
  | none => rfl
  | some text =>
    cases text with
    | nil => exact absurd hint ne
    | cons c t => rfl

theorem caretLine_of_pos {column : Int} (pos : 0 < column) :
    caretLine column = [List.replicate (4 + column - 1).toNat ' ' ++ ['^']] := by
  have width : margin + column.toNat - 1 = (4 + column - 1).toNat := by
    rw [margin]
    omega
  rw [caretLine, if_pos pos, width]

end Report

/-- The lines of the report of a fault are those of the layout. -/
theorem Fault.lines_report (fault : Fault) (source filename : Text) :
    (fault.report source filename).lines =
      Report.layout (.ofOffset source fault.offset filename) fault.complaint.description
        (sourceLine source fault.offset) fault.complaint.hint := by
  have hints := Report.hintLine_eq (r := fault.report source filename) fault.hint_ne_nil
  have pos : 0 < (Location.ofOffset source fault.offset filename).column :=
    Int.natCast_succ_pos _
  rw [Report.lines, hints]
  simp only [Report.excerpt, report, Report.caretLine_of_pos pos]
  rfl

/-! ## The lines of a report -/

section Lines

variable {place : Location} {description line : Text} {hint : Option Text}

theorem Report.newline_not_mem_layout (filename : '\n' ∉ place.filename)
    (described : '\n' ∉ description) (shown : '\n' ∉ line) (hinted : ∀ h ∈ hint, '\n' ∉ h) :
    ∀ l ∈ layout place description line hint, '\n' ∉ l := by
  intro l mem
  rcases List.mem_append.mp mem with mem | mem
  · simp only [List.mem_cons, List.not_mem_nil, or_false] at mem
    rcases mem with rfl | rfl | rfl
    · simp [filename, described]
    · simp [shown]
    · simp [List.mem_replicate]
  · obtain ⟨h, hint, rfl⟩ := List.mem_map.mp mem
    simp [hinted h (Option.mem_toList.mp hint)]

theorem Report.length_layout :
    (layout place description line hint).length = if hint.isSome then 4 else 3 := by
  cases hint <;> rfl

/-- A line feed in the description breaks the first line. -/
theorem Report.length_splitOn_of_newline {a b : Text} (filename : '\n' ∉ place.filename)
    (before : '\n' ∉ a) (behind : '\n' ∉ b) (shown : '\n' ∉ line)
    (hinted : ∀ h ∈ hint, '\n' ∉ h) :
    ((Text.joinLines (layout place (a ++ '\n' :: b) line hint)).splitOn '\n').length =
      (layout place a line hint).length + 1 := by
  obtain ⟨first, rest, whole, broken⟩ : ∃ first rest, layout place a line hint = first :: rest ∧
      layout place (a ++ '\n' :: b) line hint = (first ++ '\n' :: b) :: rest :=
    ⟨_, _, rfl, by simp [layout]⟩
  have plain := newline_not_mem_layout filename before shown hinted
  rw [whole, List.forall_mem_cons] at plain
  have lines : ∀ l ∈ first :: b :: rest, '\n' ∉ l :=
    List.forall_mem_cons.mpr ⟨plain.1, List.forall_mem_cons.mpr ⟨behind, plain.2⟩⟩
  rw [broken, Text.joinLines_cons_newline, Text.splitOn_joinLines lines (List.cons_ne_nil _ _),
    whole]
  rfl

end Lines

/-- A report of lexing is laid out as it is to be, and splits at the line feeds into the lines of
the layout: three, or four with a hint. This is not so if it blames a line feed behind a backslash;
then there are five, since the first is broken. -/
theorem lex_report_layout (o : Options) (filename source : Text) (r : Report)
    (plain : '\n' ∉ filename)
    (met : (∃ fault, ((Lexer.new o filename source).lex).1 = .error fault ∧
        r = ((Lexer.new o filename source).lex).2.report fault) ∨
      r ∈ ((Lexer.new o filename source).lex).2.diagnostics) :
    ∃ place line, r.location = some place ∧ place.filename = filename ∧ r.sourceLine = some line ∧
      r.text = Text.joinLines (Report.layout place r.description line r.hint) ∧
      (r.complaint ≠ .invalidEscape ['\n'] →
        r.text.splitOn '\n' = Report.layout place r.description line r.hint ∧
        (r.text.splitOn '\n').length = if r.hint.isSome then 4 else 3) ∧
      (r.complaint = .invalidEscape ['\n'] → (r.text.splitOn '\n').length = 5) := by
  obtain ⟨fault, rfl⟩ : ∃ fault : Fault, r = fault.report source filename := by
    rcases met with ⟨fault, -, rfl⟩ | accepted
    · exact ⟨fault, Lexer.report_lex_new o filename source fault⟩
    · rw [Lexer.diagnostics_lex_new] at accepted
      obtain ⟨fault, _, rfl⟩ := List.mem_map.mp accepted
      exact ⟨fault, rfl⟩
  have filename_plain : '\n' ∉ (Location.ofOffset source fault.offset filename).filename := plain
  have shown := newline_not_mem_sourceLine source fault.offset
  have hinted : ∀ h ∈ fault.complaint.hint, '\n' ∉ h := fun _ => fault.newline_not_mem_hint
  have text : (fault.report source filename).text = Text.joinLines
      (Report.layout (.ofOffset source fault.offset filename) fault.complaint.description
        (sourceLine source fault.offset) fault.complaint.hint) := by
    rw [Report.text, fault.lines_report]
  refine ⟨_, _, rfl, rfl, rfl, text, fun whole => ?_, fun broken => ?_⟩
  · have described : '\n' ∉ fault.complaint.description :=
      fun mem => whole (fault.newline_mem_description_iff.mp mem)
    have lines := Report.newline_not_mem_layout filename_plain described shown hinted
    rw [text, Text.splitOn_joinLines lines (List.cons_ne_nil _ _)]
    exact ⟨rfl, Report.length_layout⟩
  · have broken : fault.complaint = .invalidEscape ['\n'] := broken
    have described : fault.complaint.description =
        "invalid escape sequence '\\".toList ++ '\n' :: ['\''] := by
      rw [broken]
      rfl
    rw [text, described, Report.length_splitOn_of_newline filename_plain (by decide) (by decide)
      shown hinted, broken]
    rfl

/-- A carriage return behind a backslash stays within its line. -/
theorem lex_report_layout_carriage_return :
    Fault.report "\"\\\r\"".toList "a".toList ⟨.invalidEscape '\r', 0, 2⟩ ∈
      ((Lexer.new (Options.standard.inMode .lenient) "a".toList
        "\"\\\r\"".toList).lex).2.diagnostics ∧
    (Fault.report "\"\\\r\"".toList "a".toList ⟨.invalidEscape '\r', 0, 2⟩).text.splitOn '\n' =
      ["a:1:3: error: invalid escape sequence '\\\r'".toList, "    \"\\\r\"".toList,
        "      ^".toList, "hint: valid escapes are \\b \\n \\r \\t \\' \\\" and \\\\".toList] := by
  have met : Fault.report "\"\\\r\"".toList "a".toList ⟨.invalidEscape '\r', 0, 2⟩ ∈
      ((Lexer.new (Options.standard.inMode .lenient) "a".toList
        "\"\\\r\"".toList).lex).2.diagnostics := by decide +kernel
  obtain ⟨place, line, located, -, shown, -, whole, -⟩ :=
    lex_report_layout _ _ _ _ (by decide) (.inr met)
  obtain rfl := Option.some.inj located
  obtain rfl := Option.some.inj shown
  exact ⟨met, (whole (by decide)).1.trans (by decide +kernel)⟩

/-- A line feed there does not: the report has a hint and five lines. -/
theorem lex_report_layout_line_feed :
    ((Lexer.new .standard "a".toList "'\\\n'".toList).lex).1 =
      .error ⟨.invalidEscape '\n', 0, 2⟩ ∧
    (((Lexer.new .standard "a".toList "'\\\n'".toList).lex).2.report
      ⟨.invalidEscape '\n', 0, 2⟩).text.splitOn '\n' =
      ["a:1:3: error: invalid escape sequence '\\".toList, "'".toList, "    '\\".toList,
        "      ^".toList, "hint: valid escapes are \\b \\n \\r \\t \\' \\\" and \\\\".toList] := by
  decide +kernel

end Lexis
