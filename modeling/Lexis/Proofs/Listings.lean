import Lexis.Listing
import Lexis.Proofs.Controls
import Lexis.Proofs.Layout
import Lexis.Proofs.Unquoting

/-!
# Listings keep everything

The tokens can be told from either listing. A line of text is read column by column: the numeral of
the offset holds no space, every class fits its column, and what stands between the quotes can be
read back. In a JSON array each string ends at its own quote, and the numeral at the line end.

A listing in text has one line for each token, of printable characters only. A listing in JSON has
line feeds and the characters from the space to the tilde. So neither holds an escape character.

Results:
1. `Token.line_injective`: the line of a token.
2. `Token.jsonObject_append_inj`: its object, whatever stands behind it.
3. `Listing.splitOn_text`: the lines of a listing in text.
4. `Listing.escape_not_mem_text`, `Listing.escape_not_mem_json`: no escape characters.
5. `Listing.lossless`: both listings tell the tokens, with their number of lines and their
   characters.
-/

namespace Lexis

/-- Texts without some mark are told apart by what stands in front of it. -/
theorem Text.append_cons_inj {mark : Char} {a b x y : Text} (left : mark ∉ a) (right : mark ∉ b)
    (h : a ++ mark :: x = b ++ mark :: y) : a = b ∧ x = y := by
  rcases List.append_eq_append_iff.mp h with ⟨u, front, behind⟩ | ⟨u, front, behind⟩
  · cases u with
    | nil => exact ⟨by simpa using front.symm, (List.cons.inj behind).2⟩
    | cons c u =>
      obtain ⟨rfl, _⟩ := List.cons.inj behind
      simp [front] at right
  · cases u with
    | nil => exact ⟨by simpa using front, (List.cons.inj behind).2.symm⟩
    | cons c u =>
      obtain ⟨rfl, _⟩ := List.cons.inj behind
      simp [front] at left

theorem Text.mem_intercalate {c : Char} {mark : Text} {parts : List Text}
    (h : c ∈ mark.intercalate parts) : c ∈ mark ∨ ∃ part ∈ parts, c ∈ part := by
  induction parts with
  | nil => simp at h
  | cons part parts ih =>
    cases parts with
    | nil =>
      rw [List.intercalate_singleton] at h
      exact .inr ⟨part, List.mem_cons_self, h⟩
    | cons next parts =>
      rw [List.intercalate_cons_cons] at h
      rcases List.mem_append.mp h with front | rest
      · rcases List.mem_append.mp front with first | between
        · exact .inr ⟨part, List.mem_cons_self, first⟩
        · exact .inl between
      · rcases ih rest with between | ⟨other, mem, within⟩
        · exact .inl between
        · exact .inr ⟨other, List.mem_cons_of_mem _ mem, within⟩

theorem Text.isVisible_of_mem_ofInt {n : Int} {c : Char} (h : c ∈ Text.ofInt n) :
    Json.IsVisible c ∧ c ≠ ' ' := by
  have digits : "0123456789abcdef*".toList.all (fun d => Json.IsVisible d ∧ d ≠ ' ') = true := by
    decide
  have numeral {k : Nat} (h : c ∈ Text.ofNat k) : Json.IsVisible c ∧ c ≠ ' ' := by
    obtain ⟨d, rfl⟩ := Text.exists_digitChar_of_mem_toDigits (by decide) h
    exact of_decide_eq_true (List.all_eq_true.mp digits _ (Text.digitChar_mem d))
  unfold Text.ofInt at h
  split at h
  · rcases List.mem_cons.mp h with rfl | digit
    · decide
    · exact numeral digit
  · exact numeral h

theorem Text.space_not_mem_ofInt (n : Int) : ' ' ∉ Text.ofInt n :=
  fun mem => (isVisible_of_mem_ofInt mem).2 rfl

/-- The characters of a listing in JSON: line feeds and those from the space to the tilde. -/
def Json.IsPlain (c : Char) : Prop := c = '\n' ∨ Json.IsVisible c

instance (c : Char) : Decidable (Json.IsPlain c) := inferInstanceAs (Decidable (_ ∨ _))

theorem Json.isPlain_of_all {t : Text} {c : Char} (plain : t.all (Json.IsPlain ·) = true)
    (h : c ∈ t) : Json.IsPlain c :=
  of_decide_eq_true (List.all_eq_true.mp plain c h)

theorem Text.ofInt_ne_nil (n : Int) : Text.ofInt n ≠ [] := by
  unfold Text.ofInt
  split
  · exact List.cons_ne_nil _ _
  · exact List.ne_nil_of_length_pos Nat.length_toDigits_pos

/-! ## The line of a token -/

namespace Token

theorem padRight_name_injective {a b : Kind}
    (h : Text.padRight ' ' 10 a.name = Text.padRight ' ' 10 b.name) : a = b := by
  cases a <;> cases b <;> revert h <;> decide

theorem length_padRight_name (kind : Kind) : (Text.padRight ' ' 10 kind.name).length = 10 := by
  cases kind <;> decide

/-- Without the spaces in front, a line is the numeral of the offset, a space, and the rest. -/
theorem dropWhile_line (t : Token) : t.line.dropWhile (· = ' ') = Text.ofInt t.start ++
    ' ' :: ' ' :: (Text.padRight ' ' 10 t.kind.name ++
      (' ' :: ' ' :: Text.quoted t.lexeme)) := by
  have spaces : ∀ c ∈ List.replicate (6 - (Text.ofInt t.start).length) ' ',
      decide (c = ' ') = true :=
    fun c mem => decide_eq_true (List.eq_of_mem_replicate mem)
  have numeral : ∀ c ∈ (Text.ofInt t.start ++ ' ' :: ' ' ::
      (Text.padRight ' ' 10 t.kind.name ++ (' ' :: ' ' :: Text.quoted t.lexeme))).head?,
      decide (c = ' ') = false := by
    rw [List.head?_append_of_ne_nil _ (Text.ofInt_ne_nil _)]
    exact fun c head => decide_eq_false
      (Text.isVisible_of_mem_ofInt (List.mem_of_head? head)).2
  have split := Text.dropWhile_stretch spaces numeral
  simpa [line, Text.padLeft] using split

/-- No two tokens have the same line. -/
theorem line_injective {t u : Token} (h : t.line = u.line) : t = u := by
  have columns := congrArg (List.dropWhile (· = ' ')) h
  rw [dropWhile_line, dropWhile_line] at columns
  obtain ⟨start, rest⟩ := Text.append_cons_inj (Text.space_not_mem_ofInt _)
    (Text.space_not_mem_ofInt _) columns
  obtain ⟨kind, rest⟩ := List.append_inj (List.cons.inj rest).2
    ((length_padRight_name _).trans (length_padRight_name _).symm)
  have lexeme := Text.quoted_injective (List.cons.inj (List.cons.inj rest).2).2
  obtain ⟨_, _, _⟩ := t
  obtain ⟨_, _, _⟩ := u
  cases padRight_name_injective kind
  cases lexeme
  cases Text.ofInt_injective start
  rfl

/-- A line holds printable characters only. -/
theorem isPrintable_of_mem_line {t : Token} {c : Char} (h : c ∈ t.line) :
    Text.isPrintable c = true := by
  have names : t.kind.name.all Text.isPrintable = true := by
    cases t.kind <;> decide
  simp only [line, Text.padLeft, Text.padRight, List.mem_append, List.mem_replicate] at h
  rcases h with (((((⟨_, rfl⟩ | numeral) | blank) | name | ⟨_, rfl⟩) | blank) | quoted)
  · decide
  · exact Text.isPrintable_of_mem_ofInt numeral
  · exact List.all_eq_true.mp (by decide) c blank
  · exact List.all_eq_true.mp names c name
  · decide
  · exact List.all_eq_true.mp (by decide) c blank
  · exact Text.isPrintable_of_mem_quoted quoted

theorem line_ne_nil (t : Token) : t.line ≠ [] := by
  simp [line, Text.quoted]

/-! ## The object of a token -/

/-- No two tokens have the same object, whatever stands behind it. -/
theorem jsonObject_append_inj {t u : Token} {x y : Text}
    (h : t.jsonObject ++ x = u.jsonObject ++ y) : t = u ∧ x = y := by
  unfold jsonObject at h
  simp only [List.append_assoc, List.append_cancel_left_eq] at h
  obtain ⟨kind, h⟩ := Json.string_append_inj h
  rw [List.append_cancel_left_eq] at h
  obtain ⟨lexeme, h⟩ := Json.string_append_inj h
  have closing : "\n  \x7d".toList = '\n' :: "  \x7d".toList := by decide
  rw [List.append_cancel_left_eq, closing, List.cons_append, List.cons_append] at h
  obtain ⟨start, behind⟩ := Text.append_cons_inj (Text.newline_not_mem_ofInt _)
    (Text.newline_not_mem_ofInt _) h
  rw [List.append_cancel_left_eq] at behind
  obtain ⟨_, _, _⟩ := t
  obtain ⟨_, _, _⟩ := u
  cases Kind.name_injective kind
  cases lexeme
  cases Text.ofInt_injective start
  exact ⟨rfl, behind⟩

/-- An object holds line feeds and the characters from the space to the tilde. -/
theorem isPlain_of_mem_jsonObject {t : Token} {c : Char} (h : c ∈ t.jsonObject) :
    Json.IsPlain c := by
  unfold jsonObject at h
  simp only [List.mem_append] at h
  rcases h with (((((frame | kind) | frame) | lexeme) | frame) | start) | frame
  · exact Json.isPlain_of_all (by decide) frame
  · exact .inr (Json.isVisible_of_mem_string kind)
  · exact Json.isPlain_of_all (by decide) frame
  · exact .inr (Json.isVisible_of_mem_string lexeme)
  · exact Json.isPlain_of_all (by decide) frame
  · exact .inr (Text.isVisible_of_mem_ofInt start).1
  · exact Json.isPlain_of_all (by decide) frame

end Token

/-! ## Listings -/

namespace Listing

/-- A listing in text has the lines of its tokens. -/
theorem splitOn_text {ts : List Token} (ne : ts ≠ []) :
    (text ts).splitOn '\n' = ts.map Token.line := by
  refine Text.splitOn_joinLines (fun line mem => ?_) (mt List.map_eq_nil_iff.mp ne)
  obtain ⟨t, _, rfl⟩ := List.mem_map.mp mem
  exact Text.newline_not_mem_of_isPrintable fun _ => Token.isPrintable_of_mem_line

theorem text_ne_nil {ts : List Token} (ne : ts ≠ []) : text ts ≠ [] := by
  intro empty
  obtain ⟨t, ts, rfl⟩ := List.exists_cons_of_ne_nil ne
  have lines := splitOn_text ne
  rw [empty, List.map_cons] at lines
  exact t.line_ne_nil (List.cons.inj lines).1.symm

/-- No two lists of tokens have the same listing in text. -/
theorem text_injective {ts us : List Token} (h : text ts = text us) : ts = us := by
  by_cases left : ts = []
  · by_cases right : us = []
    · rw [left, right]
    · exact absurd (h.symm.trans (congrArg text left)) (text_ne_nil right)
  · by_cases right : us = []
    · exact absurd (h.trans (congrArg text right)) (text_ne_nil left)
    · have lines := (splitOn_text left).symm.trans ((congrArg _ h).trans (splitOn_text right))
      exact List.map_injective_iff.mpr (fun _ _ => Token.line_injective) lines

/-- The objects of tokens, up to the end of the array. -/
def objects (ts : List Token) : Text :=
  [',', '\n'].intercalate (ts.map Token.jsonObject) ++ ['\n', ']']

theorem objects_singleton (t : Token) : objects [t] = t.jsonObject ++ ['\n', ']'] := by
  simp [objects]

theorem objects_cons_cons (t u : Token) (ts : List Token) :
    objects (t :: u :: ts) = t.jsonObject ++ (',' :: '\n' :: objects (u :: ts)) := by
  simp [objects]

theorem objects_injective {ts us : List Token} {t u : Token}
    (h : objects (t :: ts) = objects (u :: us)) : t :: ts = u :: us := by
  induction ts generalizing us t u with
  | nil =>
    cases us with
    | nil =>
      rw [objects_singleton, objects_singleton] at h
      rw [(Token.jsonObject_append_inj h).1]
    | cons v us =>
      rw [objects_singleton, objects_cons_cons] at h
      cases (Token.jsonObject_append_inj h).2
  | cons w ts ih =>
    cases us with
    | nil =>
      rw [objects_singleton, objects_cons_cons] at h
      cases (Token.jsonObject_append_inj h).2
    | cons v us =>
      rw [objects_cons_cons, objects_cons_cons] at h
      obtain ⟨first, rest⟩ := Token.jsonObject_append_inj h
      rw [first, ih (List.cons.inj (List.cons.inj rest).2).2]

/-- No two lists of tokens have the same listing in JSON. -/
theorem json_injective {ts us : List Token} (h : json ts = json us) : ts = us := by
  cases ts with
  | nil =>
    cases us with
    | nil => rfl
    | cons u us => cases (List.cons.inj h).2
  | cons t ts =>
    cases us with
    | nil => cases (List.cons.inj h).2
    | cons u us =>
      have array : objects (t :: ts) = objects (u :: us) := by
        simpa [json, objects] using h
      exact objects_injective array

/-! ## The characters of listings -/

/-- A listing in JSON holds line feeds and the characters from the space to the tilde. -/
theorem isPlain_of_mem_json {ts : List Token} {c : Char} (h : c ∈ json ts) : Json.IsPlain c := by
  cases ts with
  | nil => exact Json.isPlain_of_all (by decide) h
  | cons t ts =>
    rcases List.mem_append.mp h with front | frame
    · rcases List.mem_append.mp front with frame | objects
      · exact Json.isPlain_of_all (by decide) frame
      · rcases Text.mem_intercalate objects with frame | ⟨object, mem, within⟩
        · exact Json.isPlain_of_all (by decide) frame
        · obtain ⟨u, _, rfl⟩ := List.mem_map.mp mem
          exact Token.isPlain_of_mem_jsonObject within
    · exact Json.isPlain_of_all (by decide) frame

/-- A listing in text holds line feeds and printable characters. -/
theorem isPrintable_of_mem_text {ts : List Token} {c : Char} (h : c ∈ text ts) :
    c = '\n' ∨ Text.isPrintable c = true := by
  rcases Text.mem_intercalate h with newline | ⟨line, mem, within⟩
  · exact .inl (List.mem_singleton.mp newline)
  · obtain ⟨t, _, rfl⟩ := List.mem_map.mp mem
    exact .inr (Token.isPrintable_of_mem_line within)

theorem escape_not_mem_text (ts : List Token) : Text.escapeChar ∉ text ts := by
  intro mem
  rcases isPrintable_of_mem_text mem with newline | printable
  · cases newline
  · cases Text.isPrintable_escape.symm.trans printable

theorem escape_not_mem_json (ts : List Token) : Text.escapeChar ∉ json ts :=
  fun mem => absurd (isPlain_of_mem_json mem) (by decide)

/-- Both listings tell the tokens. A listing in text of some tokens splits into the lines of the
tokens, as many as there are, and no line holds a line feed or a carriage return. A listing in JSON
is in ASCII. -/
theorem lossless (ts us : List Token) :
    (text ts = text us ↔ ts = us) ∧
    (json ts = json us ↔ ts = us) ∧
    (ts ≠ [] → (text ts).splitOn '\n' = ts.map Token.line ∧
      ((text ts).splitOn '\n').length = ts.length) ∧
    (∀ t ∈ ts, '\n' ∉ t.line ∧ '\r' ∉ t.line) ∧
    ∀ c ∈ json ts, c.toNat < 0x80 := by
  refine ⟨⟨text_injective, congrArg text⟩, ⟨json_injective, congrArg json⟩, fun ne => ?_,
    fun t _ => ⟨fun mem => ?_, fun mem => ?_⟩, fun c mem => ?_⟩
  · have lines := splitOn_text ne
    exact ⟨lines, by rw [lines, List.length_map]⟩
  · cases Text.isPrintable_newline.symm.trans (Token.isPrintable_of_mem_line mem)
  · cases Text.isPrintable_return.symm.trans (Token.isPrintable_of_mem_line mem)
  · rcases isPlain_of_mem_json mem with rfl | ⟨_, high⟩
    · decide
    · omega

/-- An offset too wide for its column, before a lexeme with a line feed, quotes and a character
beyond the 16-bit ones. -/
theorem lossless_wide_offset :
    let t : Token := ⟨.string, "\"\n'😀\"".toList, 12345678⟩
    [t] ≠ [] ∧ (text [t]).splitOn '\n' = ["12345678  STRING      '\"\\n\\'😀\"'".toList] ∧
    t ∈ [t] ∧ '\n' ∉ t.line ∧ '[' ∈ json [t] ∧ '['.toNat < 0x80 := by
  intro t
  obtain ⟨-, -, lines, plain, ascii⟩ := lossless [t] []
  have ne : [t] ≠ [] := List.cons_ne_nil t []
  have mem : t ∈ [t] := List.mem_singleton_self t
  have opening : '[' ∈ json [t] := by decide +kernel
  exact ⟨ne, (lines ne).1.trans (by decide +kernel), mem, (plain t mem).1, opening, ascii _ opening⟩

end Listing

end Lexis
