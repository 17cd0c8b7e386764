import Lexis.Proofs.Agreement

/-!
# The grammar of lenient tokens

Lenient reading closes a malformed literal wherever it stops, so its lexemes are cut in more ways
than the grammar of tokens knows. All the same there are few of them, and what consumes the tokens
can rely on it: a character literal has at most four characters, the double quotes within a string
are escaped, and a number has at most one point. Where a string ends without its quote, and where a
single quote stands for itself, is told by what is behind the lexeme; `Loose` therefore says what a
lexeme looks like in front of the rest of its text.

Results:
1. `CharacterLiteral.loose_of_lenient`, `StringLiteral.loose_of_lenient`: the literals, by the
   function that reads them on.
2. `Scan.loose_of_token`: whatever the rule, the token has one of the shapes.
3. `lex_lenient_shapes`: lenient lexing answers with such tokens only.
-/

namespace Lexis

open Alphabet

/-! ## Shapes -/

/-- What lenient reading takes for an integer: `0`, digits that do not begin with a zero, or a minus
sign and any number of digits. -/
inductive LooseInteger : Text → Prop
  | zero : LooseInteger ['0']
  | positive {c : Char} {t : Text} : c.isDigit = true → c ≠ '0' → (∀ d ∈ t, d.isDigit = true) →
      LooseInteger (c :: t)
  | negative {t : Text} : (∀ d ∈ t, d.isDigit = true) → LooseInteger ('-' :: t)

/-- Each double quote that has something behind it stands right behind a backslash. -/
def QuotesEscaped (body : Text) : Prop :=
  ∀ a b, body = a ++ '"' :: b → b ≠ [] → a.getLast? = some '\\'

/-- Where lenient reading ends a string: with a double quote, with a backslash if no letter of an
escape is behind it, or with at most one character of the text left. -/
def StringEnds (body behind : Text) : Prop :=
  body.getLast? = some '"' ∨
  (body.getLast? = some '\\' ∧ ∀ e ∈ behind.head?, e ∉ ['b', 'n', 'r', 't', '\'', '"', '\\']) ∨
  behind.length ≤ 1

/-- `Loose behind kind lexeme`: what a lexeme of the kind looks like in lenient reading, in front of
the rest of the text.

* `identifier`: `[@A-Za-z][A-Za-z0-9_-]*`
* `integer`: `0 | [1-9][0-9]* | -[0-9]*`
* `decimal`: such an integer, then `.[0-9]*`
* `backslash`: a single quote and a backslash
* `escape`: a single quote, an escape, and perhaps a quote
* `plain`: a single quote, then perhaps a control, perhaps a plain character, perhaps a quote
* `string`: a double quote, then characters among which the quotes are escaped, up to where a string
  ends
* `pair`, `single`: `!= | == | && | ||`, or a character that begins no other token; a single quote
  is one only at the end of the text -/
inductive Loose (behind : Text) : Kind → Text → Prop
  | identifier {c : Char} {t : Text} : c = '@' ∨ c.isAlpha = true →
      (∀ d ∈ t, d.isAlphanum = true ∨ d = '_' ∨ d = '-') → Loose behind .identifier (c :: t)
  | integer {t : Text} : LooseInteger t → Loose behind .integer t
  | decimal {whole fraction : Text} : LooseInteger whole → (∀ d ∈ fraction, d.isDigit = true) →
      Loose behind .decimal (whole ++ '.' :: fraction)
  | backslash : Loose behind .character ['\'', '\\']
  | escape {e : Char} {close : Text} : e ∈ ['b', 'n', 'r', 't', '\'', '"', '\\'] →
      close <+: ['\''] → Loose behind .character ('\'' :: '\\' :: e :: close)
  | plain (control plain : Option Char) {close : Text} :
      (∀ c ∈ control, c ∈ ['\n', '\r', '\t', '\x08', '\x0c']) →
      (∀ c ∈ plain, c ∉ ['\'', '\n', '\r', '\\']) → close <+: ['\''] →
      Loose behind .character ('\'' :: (control.toList ++ (plain.toList ++ close)))
  | string {body : Text} : QuotesEscaped body → StringEnds body behind →
      Loose behind .string ('"' :: body)
  | pair {t : Text} : t ∈ ["!=".toList, "==".toList, "&&".toList, "||".toList] →
      Loose behind .operator t
  | single {c : Char} : c.isAlpha = false → c.isDigit = false → c ≠ '@' → c ≠ '-' → c ≠ '"' →
      (c = '\'' → behind = []) → Loose behind .operator [c]

variable {c : Char} {t : Text} {kind : Kind} {n depth : Nat} {noted flaw : Option Flaw}

/-! ## Character literals -/

namespace CharacterLiteral

/-- At the end of a literal, a quote is taken if there is one. -/
theorem parts_of_lenientClose (pos : 0 < depth)
    (h : lenientClose depth noted t = .token kind n flaw) :
    ∃ close behind, t = close ++ behind ∧ n + 1 = depth + close.length ∧ close <+: ['\''] := by
  unfold lenientClose at h
  split at h
  · next r =>
    cases h
    exact ⟨['\''], r, rfl, rfl, List.prefix_rfl⟩
  · cases h
    exact ⟨[], _, rfl, Nat.sub_add_cancel pos, List.nil_prefix⟩

theorem parts_of_lenientBody (pos : 0 < depth)
    (h : lenientBody depth noted t = .token kind n flaw) :
    ∃ (plain : Option Char) (close behind : Text), t = plain.toList ++ (close ++ behind) ∧
      n + 1 = depth + (plain.toList ++ close).length ∧
      (∀ c ∈ plain, c ∉ ['\'', '\n', '\r', '\\']) ∧ close <+: ['\''] := by
  have all : ['\'', '\n', '\r', '\\'] ⊆ characterExcluded := by decide
  obtain ⟨plain, _, rfl, allowed, same⟩ := exists_lenientBody_eq depth noted t
  rw [same] at h
  obtain ⟨close, behind, rfl, length, quote⟩ :=
    parts_of_lenientClose (Nat.add_pos_left pos _) h
  refine ⟨plain, close, behind, rfl, ?_, fun c mem among => allowed c mem (all among), quote⟩
  rw [length, List.length_append, Nat.add_assoc]

theorem loose_of_lenient (h : lenient t = .token kind n flaw) :
    ∃ body behind, t = body ++ behind ∧ n = body.length ∧
      Loose behind .character ('\'' :: body) := by
  unfold lenient at h
  split at h
  · next c d t =>
    split at h
    · next backslash =>
      subst backslash
      split at h
      · next letter =>
        obtain ⟨close, behind, rfl, length, quote⟩ := parts_of_lenientClose (by decide) h
        refine ⟨'\\' :: d :: close, behind, rfl, ?_, .escape (mem_escapeLetters_iff.mp letter) quote⟩
        rw [List.length_cons, List.length_cons]
        omega
      · cases h
        exact ⟨['\\'], d :: t, rfl, rfl, .backslash⟩
    · split at h
      · next control =>
        obtain ⟨plain, close, behind, rest, length, allowed, quote⟩ :=
          parts_of_lenientBody (by decide) h
        refine ⟨c :: (plain.toList ++ close), behind, ?_, ?_, ?_⟩
        · rw [rest, List.cons_append, List.append_assoc]
        · rw [List.length_cons]
          omega
        · refine .plain (some c) plain ?_ allowed quote
          intro x mem
          obtain rfl := Option.mem_some.mp mem
          have all : controlChars ⊆ ['\n', '\r', '\t', '\x08', '\x0c'] := by decide
          exact all control
      · obtain ⟨plain, close, behind, rest, length, allowed, quote⟩ :=
          parts_of_lenientBody (by decide) h
        refine ⟨plain.toList ++ close, behind, ?_, ?_, ?_⟩
        · rw [rest, List.append_assoc]
        · omega
        · exact .plain none plain nofun allowed quote
  · cases h
    exact ⟨[], t, rfl, rfl, .plain none none nofun nofun List.nil_prefix⟩

end CharacterLiteral

/-! ## String literals -/

namespace QuotesEscaped

theorem nil : QuotesEscaped [] := by
  intro a b eq
  cases a <;> cases eq

theorem quote : QuotesEscaped ['"'] := by
  intro a b eq ne
  cases a with
  | nil =>
    cases eq
    exact absurd rfl ne
  | cons x a =>
    have nothing := (List.cons.inj eq).2
    cases a <;> cases nothing

theorem cons {body : Text} (plain : c ≠ '"') (h : QuotesEscaped body) :
    QuotesEscaped (c :: body) := by
  intro a b eq ne
  cases a with
  | nil =>
    cases eq
    exact absurd rfl plain
  | cons x a =>
    have before := h a b (List.cons.inj eq).2 ne
    rw [List.getLast?_cons, before]
    rfl

theorem escape {body : Text} {e : Char} (h : QuotesEscaped body) :
    QuotesEscaped ('\\' :: e :: body) := by
  by_cases quote : e = '"'
  · intro a b eq ne
    cases a with
    | nil => cases eq
    | cons x a =>
      obtain ⟨rfl, rest⟩ := List.cons.inj eq
      cases a with
      | nil => rfl
      | cons y a =>
        have before := h a b (List.cons.inj rest).2 ne
        rw [List.getLast?_cons, List.getLast?_cons, before]
        rfl
  · exact (h.cons quote).cons (by decide)

end QuotesEscaped

theorem StringEnds.append {body behind : Text} (h : StringEnds body behind) (a : Text) :
    StringEnds (a ++ body) behind := by
  have last {c : Char} (h : body.getLast? = some c) : (a ++ body).getLast? = some c := by
    rw [List.getLast?_append, h]
    rfl
  exact h.imp last (Or.imp_left (And.imp_left last))

namespace StringLiteral

/-- The body of a string ends where lenient reading ends one, and its quotes are escaped. -/
theorem loose_of_lenient {escaped : Bool} (pos : 0 < depth)
    (h : lenient depth escaped noted t = .token kind n flaw) :
    ∃ body behind, t = body ++ behind ∧ n + 1 = depth + body.length ∧ QuotesEscaped body ∧
      StringEnds body behind := by
  fun_induction lenient depth escaped noted t with
  | case1 depth =>
    cases h
    exact ⟨[], [], rfl, Nat.sub_add_cancel pos, .nil, .inr (.inr (Nat.zero_le _))⟩
  | case2 | case4 =>
    cases h
    exact ⟨['"'], _, rfl, rfl, .quote, .inl rfl⟩
  | case3 depth escaped noted c quote =>
    -- only a backslash that could have begun an escape is taken at the end of the text
    split at h
    · cases h
      exact ⟨[c], [], rfl, rfl, QuotesEscaped.nil.cons quote, .inr (.inr (Nat.zero_le _))⟩
    · cases h
      exact ⟨[], [c], rfl, Nat.sub_add_cancel pos, .nil, .inr (.inr (Nat.le_refl _))⟩
  | case5 depth escaped noted c d t quote backslash letter ih =>
    obtain ⟨rfl, _⟩ := backslash
    obtain ⟨body, behind, rfl, length, shielded, ends⟩ := ih (Nat.succ_pos _) h
    refine ⟨'\\' :: d :: body, behind, rfl, ?_, shielded.escape, ends.append ['\\', d]⟩
    exact length.trans (Nat.add_right_comm depth 2 body.length)
  | case6 depth escaped noted c d t quote backslash letter =>
    obtain ⟨rfl, _⟩ := backslash
    cases h
    refine ⟨['\\'], d :: t, rfl, rfl, QuotesEscaped.nil.cons (by decide), .inr (.inl ⟨rfl, ?_⟩)⟩
    intro e head
    obtain rfl := Option.mem_some.mp head
    rwa [← mem_escapeLetters_iff]
  | case7 depth escaped noted c d t quote asIs ih =>
    obtain ⟨body, behind, rest, length, shielded, ends⟩ := ih (Nat.succ_pos _) h
    refine ⟨c :: body, behind, congrArg (List.cons c) rest, ?_, shielded.cons quote,
      ends.append [c]⟩
    exact length.trans (Nat.add_right_comm depth 1 body.length)

end StringLiteral

/-! ## Numbers -/

namespace Numeral

theorem looseInteger_of_starts (number : Scan.startsNumber .lenient c t = true)
    (alone : ¬ (c = '0' ∧ t.head? ≠ some '.')) :
    LooseInteger (c :: t.takeWhile (· ∈ digits)) := by
  have all : ∀ d ∈ t.takeWhile (· ∈ digits), d.isDigit = true :=
    fun d mem => isDigit_of_mem_takeWhile mem
  by_cases zero : c = '0'
  · -- the point stands right behind the zero, so no digit does
    obtain ⟨v, rfl⟩ : ∃ v, t = '.' :: v := by
      simp only [zero, true_and, ne_eq, not_not] at alone
      exact List.head?_eq_some_iff.mp alone
    subst zero
    simpa using LooseInteger.zero
  by_cases digit : c ∈ digits
  · exact .positive (mem_digits_iff.mp digit) zero all
  · have sign : c = '-' := by simpa [Scan.startsNumber, digit] using number
    subst sign
    exact .negative all

/-- What lenient reading takes for a number. -/
theorem loose_of_scan (behind : Text) (number : Scan.startsNumber .lenient c t = true)
    (h : scan .lenient c t = .token kind n flaw) : Loose behind kind (c :: t.take n) := by
  unfold scan at h
  split at h
  · next alone =>
    obtain ⟨rfl, _⟩ := alone
    cases h
    exact .integer .zero
  next alone =>
  cases h
  have whole := looseInteger_of_starts number alone
  unfold tail
  cases fraction : fraction? .lenient (t.drop (digitRun t)) with
  | none =>
    rw [take_digitRun]
    exact .integer whole
  | some m =>
    obtain ⟨v, _, _, read⟩ := take_of_fraction? fraction
    simp only [read]
    exact .decimal whole fun d mem => isDigit_of_mem_takeWhile mem

end Numeral

/-! ## The rule that applies -/

namespace Scan

theorem loose_operator (behind : Text) (ident : c ∉ identStart) (digit : c ∉ digits)
    (sign : c ≠ '-') (quote : c ≠ '\'') (double : c ≠ '"') :
    Loose behind .operator (c :: t.take (operatorTail c t)) := by
  have spelled := spelling_operator (t := t) ident digit quote double
  generalize text : c :: t.take (operatorTail c t) = l at spelled
  cases spelled with
  | pair mem => exact .pair mem
  | single alpha at' number =>
    obtain ⟨rfl, _⟩ := List.cons.inj text
    exact .single alpha number at' sign double fun h => absurd h quote

/-- Whatever the rule, a token of lenient reading has one of the shapes. -/
theorem loose_of_token (space : c ≠ ' ') (h : ofText .lenient c t = .token kind n flaw) :
    ∃ body behind, t = body ++ behind ∧ n = body.length ∧ Loose behind kind (c :: body) := by
  have le := further_le_of_token h
  -- but for the literals, the body is what is read behind the first character
  have read (loose : Loose (t.drop n) kind (c :: t.take n)) :
      ∃ body behind, t = body ++ behind ∧ n = body.length ∧ Loose behind kind (c :: body) :=
    ⟨_, _, (List.take_append_drop n t).symm, (List.length_take_of_le le).symm, loose⟩
  unfold ofText at h
  split at h
  · next start =>
    cases h
    exact read (.identifier (mem_identStart_iff.mp start) fun _ => identChar_of_mem_tail)
  next ident =>
  split at h
  · next number => exact read (Numeral.loose_of_scan _ number h)
  next number =>
  have digit := not_mem_digits (Bool.eq_false_iff.mpr number)
  have sign : c ≠ '-' := by
    rintro rfl
    exact number (by simp [startsNumber])
  split at h
  · next quote =>
    obtain ⟨rfl, _⟩ := quote
    obtain ⟨_, _, scan⟩ := CharacterLiteral.exists_lenient_token t
    obtain ⟨rfl, _⟩ := token.inj (scan.symm.trans h)
    exact CharacterLiteral.loose_of_lenient h
  next notLiteral =>
  split at h
  · next double =>
    subst double
    obtain ⟨_, _, scan⟩ := StringLiteral.exists_lenient_token 1 false none t
    obtain ⟨rfl, _⟩ := token.inj (scan.symm.trans h)
    obtain ⟨body, behind, text, length, shielded, ends⟩ :=
      StringLiteral.loose_of_lenient Nat.one_pos h
    exact ⟨body, behind, text, by omega, .string shielded ends⟩
  next double =>
  cases h
  by_cases quote : c = '\''
  · -- a single quote is left over only at the end of the text
    subst quote
    have nothing : t = [] := by simpa using notLiteral
    subst nothing
    exact ⟨[], [], rfl, rfl, .single rfl rfl (by decide) (by decide) (by decide) fun _ => rfl⟩
  · exact read (loose_operator _ ident digit sign quote double)

end Scan

/-! ## Lexing -/

theorem Loose.length_le {behind l : Text} (h : Loose behind .character l) : l.length ≤ 4 := by
  have one (part : Option Char) : part.toList.length ≤ 1 := by cases part <;> simp
  cases h with
  | backslash => decide
  | escape _ quote => exact Nat.add_le_add_right quote.length_le 3
  | plain control plain _ _ quote =>
    have short := quote.length_le
    have := one control
    have := one plain
    simp only [List.length_cons, List.length_append, List.length_nil] at short ⊢
    omega

/-- The lexemes of lenient lexing have few shapes. It answers with tokens to every text; each stands
in the text where its offset says, and looks as lexemes of its kind do in front of what is behind
it. -/
theorem lex_lenient_shapes (o : Options) (filename source : Text) :
    ∃ tokens, ((Lexer.new (o.inMode .lenient) filename source).lex).1 = .ok tokens ∧
      ∀ token ∈ tokens, ∃ before behind,
        source = before ++ token.lexeme ++ behind ∧ token.start = before.length ∧
        Loose behind token.kind token.lexeme ∧
        (token.kind = .character → token.lexeme.length ≤ 4) := by
  refine ⟨_, (Lexer.lex_new_eq_ok_iff _ _ _).mpr ⟨o.refusal_lenient source, rfl⟩, ?_⟩
  intro token mem
  obtain ⟨before, c, u, n, flaw, text, black, scan, lexeme, start⟩ :=
    Options.exists_scan_of_mem mem
  obtain ⟨body, behind, rfl, rfl, loose⟩ :=
    Scan.loose_of_token (Options.ne_space_of_not_mem black) scan
  have read : token.lexeme = c :: body := by
    rw [lexeme, List.take_succ_cons, List.take_left]
  rw [read]
  refine ⟨before, behind, ?_, start, loose, fun kind => ?_⟩
  · rw [text, List.append_assoc, List.cons_append]
  · rw [kind] at loose
    exact loose.length_le

/-- A number that ends with its point, a string cut before what makes no escape, a literal that holds
a line end, and a quote that is left over. -/
example : ((Lexer.new (Options.standard.inMode .lenient) [] "-.\"\\q'\n''".toList).lex).1 =
    .ok [⟨.decimal, "-.".toList, 0⟩, ⟨.string, "\"\\".toList, 2⟩, ⟨.identifier, ['q'], 4⟩,
      ⟨.character, "'\n'".toList, 5⟩, ⟨.operator, ['\''], 8⟩] := by
  decide +kernel

end Lexis
