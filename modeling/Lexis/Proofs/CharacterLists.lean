import Lexis.Pattern.Basic
import Lexis.Proofs.RegexLanguage
import Lexis.Proofs.Skipping
import Lexis.Proofs.Spacing
import Lexis.Proofs.Tiling
import Mathlib.Data.List.Chain

/-!
# Lists of characters

The pattern for lists of characters is about a whole text, the lexer about its tokens and the gaps
between them. The two agree on what a list is, whatever its characters are: a comma, a bracket or a
space in quotes belongs to its character. Both are compared with one description of a list, a
relation between its text and its tokens (`CharacterList`). Behind the first character the relation
goes on by itself (`ListRest`), as the pattern does by repetition and the tokens do by being one
more comma and one more character.

Results:
1. `Pattern.mem_language_characterListRegex`: the texts of the pattern are the lists.
2. `CharacterList.read`: strict reading finds the tokens of a list.
3. `CharacterList.spelled`, `CharacterList.last`, `CharacterList.beside`: the tokens of a list and
   the gaps between them.
4. `CharacterList.of_formsList`: only the texts of lists have such tokens and gaps.
5. `characterList_pattern_iff_lex`: the pattern beside strict lexing.
-/

namespace Lexis

open Alphabet

/-! ## What a list is -/

/-- Two tokens of a list stand side by side, or a space stands between a comma and a character. -/
def Token.Beside (a b : Token) : Prop :=
  b.start = a.stop ∨
    a.spelled = (.operator, [',']) ∧ b.kind = .character ∧ b.start = a.stop + 1

/-- The tokens make the text a list of characters.

* `spelled`: they are characters of one plain character each, separated by single commas and put
  between brackets.
* `first`, `last`: they reach from one end of the text to the other.
* `beside`, `blank`: what stands between them is at most one space, in front of a character that
  follows a comma. -/
structure FormsList (t : Text) (tokens : List Token) : Prop where
  spelled : ∃ items : List Text, (∀ item ∈ items, item.length = 3) ∧
    tokens.map Token.spelled = (.operator, ['[']) ::
      ((items.map fun item => (Kind.character, item)).intersperse (.operator, [',']) ++
        [(.operator, [']'])])
  first : ∀ token ∈ tokens.head?, token.start = 0
  last : ∀ token ∈ tokens.getLast?, token.stop = t.length
  beside : tokens.IsChain Token.Beside
  blank : ∀ (i : Nat) (c : Char), t[i]? = some c →
    (∀ token ∈ tokens, ¬ (token.start ≤ i ∧ i < token.stop)) → c = ' '

/-- `ListRest n t tokens`: the text, which begins at offset `n`, is the rest of a list behind one of
its characters, and the tokens are those in it.

* `close`: the closing bracket.
* `item`: a comma, perhaps a space, and one more character. -/
inductive ListRest : Nat → Text → List Token → Prop
  | close {n : Nat} : ListRest n [']'] [⟨.operator, [']'], n⟩]
  | item {n : Nat} {gap t : Text} {c : Char} {tokens : List Token} : gap = [' '] ∨ gap = [] →
      c ∉ characterExcluded → ListRest (n + 1 + gap.length + 3) t tokens →
      ListRest n (',' :: (gap ++ '\'' :: c :: '\'' :: t))
        (⟨.operator, [','], n⟩ ::
          ⟨.character, ['\'', c, '\''], (n + 1 + gap.length : Nat)⟩ :: tokens)

/-- `CharacterList t tokens`: the text is a list of characters, and the tokens are those in it.

* `empty`: nothing between the brackets.
* `items`: a character, and the rest of a list behind it. -/
inductive CharacterList : Text → List Token → Prop
  | empty : CharacterList ['[', ']'] [⟨.operator, ['['], 0⟩, ⟨.operator, [']'], 1⟩]
  | items {t : Text} {c : Char} {tokens : List Token} : c ∉ characterExcluded →
      ListRest 4 t tokens →
      CharacterList ('[' :: '\'' :: c :: '\'' :: t)
        (⟨.operator, ['['], 0⟩ :: ⟨.character, ['\'', c, '\''], 1⟩ :: tokens)

variable {t : Text} {n : Nat} {tokens : List Token}

/-! ## The pattern -/

namespace Pattern

open Regex

theorem mem_language_listItem :
    t ∈ listItem.language ↔ ∃ c, c ∉ characterExcluded ∧ ['\'', c, '\''] = t := by
  simp only [listItem, mem_language_inOrder_cons, mem_language_inOrder_nil, mem_language_literal,
    mem_language_one, exists_eq_left, exists_eq_left', exists_exists_and_eq_and,
    decide_eq_true_eq, List.append_nil]
  rfl

theorem mem_language_furtherItem :
    t ∈ (inOrder [literal [','], optional (literal [' ']), listItem]).language ↔
    ∃ gap, (gap = [' '] ∨ gap = []) ∧ ∃ c, c ∉ characterExcluded ∧
      ',' :: (gap ++ ['\'', c, '\'']) = t := by
  simp only [mem_language_inOrder_cons, mem_language_inOrder_nil, mem_language_literal,
    mem_language_optional, mem_language_listItem, exists_eq_left, exists_exists_and_eq_and,
    exists_exists_and_exists_and_eq_and, List.append_nil]
  rfl

/-- What the pattern has behind one character, up to the closing bracket. -/
theorem mem_language_furtherItems (n : Nat) :
    (∃ u ∈ (many (inOrder [literal [','], optional (literal [' ']), listItem])).language,
      u ++ [']'] = t) ↔
    ∃ tokens, ListRest n t tokens := by
  simp only [mem_language_many, mem_language_furtherItem, exists_exists_and_eq_and]
  constructor
  · rintro ⟨us, items, rfl⟩
    induction us generalizing n with
    | nil => exact ⟨_, .close⟩
    | cons u us ih =>
      obtain ⟨⟨gap, short, c, excluded, rfl⟩, others⟩ := List.forall_mem_cons.mp items
      obtain ⟨tokens, rest⟩ := ih (n + 1 + gap.length + 3) others
      have longer := ListRest.item short excluded rest
      exact ⟨_, by simpa using longer⟩
  · rintro ⟨tokens, rest⟩
    induction rest with
    | close => exact ⟨[], by simp, rfl⟩
    | @item n gap t c tokens short excluded _ ih =>
      obtain ⟨us, items, rfl⟩ := ih
      refine ⟨(',' :: (gap ++ ['\'', c, '\''])) :: us, ?_, by simp⟩
      exact List.forall_mem_cons.mpr ⟨⟨gap, short, c, excluded, rfl⟩, items⟩

/-- The texts of the pattern are the lists of characters. -/
theorem mem_language_characterListRegex :
    t ∈ characterListRegex.language ↔ ∃ tokens, CharacterList t tokens := by
  simp only [characterListRegex, mem_language_inOrder_cons, mem_language_inOrder_nil,
    mem_language_both, mem_language_literal, mem_language_optional, mem_language_listItem,
    exists_eq_left, exists_eq_left', exists_exists_and_eq_and, List.append_nil]
  constructor
  · rintro ⟨_, ⟨c, excluded, v, items, rfl⟩ | rfl, rfl⟩
    · obtain ⟨tokens, rest⟩ := (mem_language_furtherItems 4).mp ⟨v, items, rfl⟩
      have list := CharacterList.items excluded rest
      exact ⟨_, by simpa using list⟩
    · exact ⟨_, .empty⟩
  · rintro ⟨tokens, list⟩
    cases list with
    | empty => exact ⟨[], .inr rfl, rfl⟩
    | items excluded rest =>
      obtain ⟨v, items, rfl⟩ := (mem_language_furtherItems 4).mpr ⟨_, rest⟩
      exact ⟨_, .inl ⟨_, excluded, v, items, rfl⟩, by simp⟩

end Pattern

/-! ## Reading a list -/

/-- A bracket or a comma is an operator of one character. -/
theorem Options.read_mark {c : Char} (mark : c ∈ ['[', ',', ']']) (t : Text) :
    Options.standard.read (c :: t) =
      ((Options.standard.read t).shift 1).cons ⟨.operator, [c], 0⟩ none := by
  have marks : ∀ d ∈ ['[', ',', ']'],
      d ∉ defaultWhitespace ∧ d ∉ tokenStarts ∧ d ≠ ' ' ∧ d ∉ pairing :=
    forall_mem_of_all (by decide +kernel)
  obtain ⟨black, free, space, single⟩ := marks c mark
  exact read_token black (Scan.ofText_of_free free space single)

theorem Options.read_plain {c : Char} (excluded : c ∉ characterExcluded)
    (plain : c ∉ ['\t', '\x08', '\x0c']) (t : Text) :
    Options.standard.read ('\'' :: c :: '\'' :: t) =
      ((Options.standard.read t).shift 3).cons ⟨.character, ['\'', c, '\''], 0⟩ none := by
  have item : Item ['\'', '\\', '\n', '\r', '\t', '\x08', '\x0c'] [c] := by
    refine .plain ?_
    simp_all [characterExcluded]
  have scan : Scan.ofText .strict '\'' (c :: '\'' :: t) = .token .character 2 none := by
    rw [Scan.ofText_quote (.inl rfl)]
    exact CharacterLiteral.strict_eq_token_iff.mpr ⟨[c], item, ⟨t, rfl⟩, rfl, rfl, rfl⟩
  exact read_token (o := .standard) (show '\'' ∉ defaultWhitespace by decide) scan

theorem Options.read_gap {gap : Text} (short : gap = [' '] ∨ gap = []) (t : Text) :
    Options.standard.read (gap ++ t) = (Options.standard.read t).shift gap.length := by
  rcases short with rfl | rfl
  · exact read_white List.mem_cons_self
  · exact (Reading.shift_zero _).symm

namespace ListRest

/-- Strict reading finds the tokens of the rest of a list. -/
theorem read (list : ListRest n t tokens) (plain : ∀ c ∈ t, c ∉ ['\t', '\x08', '\x0c']) :
    (Options.standard.read t).shift n = ⟨tokens, [], none⟩ := by
  induction list with
  | @close n =>
    rw [Options.read_mark (by decide), Options.read_nil]
    simp [Reading.shift, Reading.cons, Reading.finished, Token.shift]
  | @item n gap t c tokens short excluded _ ih =>
    have here : c ∉ ['\t', '\x08', '\x0c'] := plain c (by simp)
    have rest := ih fun d mem => plain d (by simp [mem])
    rw [Options.read_mark (by decide), Options.read_gap short, Options.read_plain excluded here]
    simp only [Reading.shift_cons, Reading.shift_shift, ← Nat.add_assoc, rest]
    simp [Reading.cons, Token.shift, Int.add_assoc]

/-! ## The tokens of a list -/

theorem spelled (list : ListRest n t tokens) :
    ∃ items : List Text, (∀ item ∈ items, item.length = 3) ∧
      tokens.map Token.spelled =
        items.flatMap (fun item => [(.operator, [',']), (.character, item)]) ++
          [(.operator, [']'])] := by
  induction list with
  | close => exact ⟨[], by simp, rfl⟩
  | @item n gap t c tokens _ _ _ ih =>
    obtain ⟨items, lengths, spelled⟩ := ih
    refine ⟨['\'', c, '\''] :: items, List.forall_mem_cons.mpr ⟨rfl, lengths⟩, ?_⟩
    simp [spelled, Token.spelled]

theorem first (list : ListRest n t tokens) : ∀ token ∈ tokens.head?, token.start = n := by
  cases list <;> simp

theorem last (list : ListRest n t tokens) :
    ∃ (before : List Token) (final : Token),
      tokens = before ++ [final] ∧ final.stop = (n + t.length : Nat) := by
  induction list with
  | close => exact ⟨[], _, rfl, rfl⟩
  | @item n gap t c tokens _ _ _ ih =>
    obtain ⟨before, final, rfl, stop⟩ := ih
    refine ⟨_ :: _ :: before, final, rfl, ?_⟩
    rw [stop]
    simp only [List.length_cons, List.length_append]
    omega

theorem beside (list : ListRest n t tokens) : tokens.IsChain Token.Beside := by
  induction list with
  | close => exact .singleton _
  | @item n gap t c tokens short _ rest ih =>
    refine .cons_cons ?_ (ih.cons ?_)
    · rcases short with rfl | rfl
      · exact .inr ⟨rfl, rfl, by simp [Token.stop]⟩
      · exact .inl (by simp [Token.stop])
    · intro next head
      exact .inl (by simp [rest.first next head, Token.stop])

end ListRest

/-! ## Only lists have such tokens -/

theorem Token.eq_of_spelled {token : Token} {kind : Kind} {lexeme : Text} {start : Int}
    (spelled : token.spelled = (kind, lexeme)) (place : token.start = start) :
    token = ⟨kind, lexeme, start⟩ := by
  cases token
  cases spelled
  cases place
  rfl

/-- The first token of a tiling, and what stands before and behind it. -/
theorem Tiling.exists_of_cons {whitespace : Text} {token : Token}
    (tiling : Tiling whitespace n t (token :: tokens)) :
    ∃ gap u, gap ⊆ whitespace ∧ t = gap ++ (token.lexeme ++ u) ∧
      token.start = (n + gap.length : Nat) ∧
      Tiling whitespace (n + gap.length + token.lexeme.length) u tokens := by
  cases tiling with
  | token gap _ rest => exact ⟨_, _, gap, rfl, rfl, rest⟩

theorem Tiling.exists_of_start {whitespace : Text} {token : Token}
    (tiling : Tiling whitespace n t (token :: tokens)) (start : token.start = n) :
    ∃ u, t = token.lexeme ++ u ∧ Tiling whitespace (n + token.lexeme.length) u tokens := by
  obtain ⟨gap, u, _, rfl, place, rest⟩ := tiling.exists_of_cons
  obtain rfl : gap = [] := List.length_eq_zero_iff.mp (by omega)
  exact ⟨u, rfl, rest⟩

/-- A character literal of three characters is one plain character in quotes. -/
theorem Spelling.exists_of_length {lexeme : Text} (spelled : Spelling .character lexeme)
    (length : lexeme.length = 3) : ∃ c, c ∉ characterExcluded ∧ lexeme = ['\'', c, '\''] := by
  cases spelled with
  | character item =>
    cases item with
    | @plain c plain =>
      refine ⟨c, ?_, rfl⟩
      simp_all [characterExcluded]
    | escape => simp at length

theorem short_of_length {gap : Text} (white : gap ⊆ defaultWhitespace) (tab : '\t' ∉ gap)
    (length : gap.length ≤ 1) : gap = [' '] ∨ gap = [] := by
  cases gap with
  | nil => exact .inr rfl
  | cons c gap =>
    have none : gap.length = 0 := Nat.le_zero.mp (Nat.le_of_succ_le_succ length)
    obtain rfl := List.length_eq_zero_iff.mp none
    have blank : c = ' ' ∨ c = '\t' := by simpa [defaultWhitespace] using white List.mem_cons_self
    rcases blank with rfl | rfl
    · exact .inl rfl
    · exact absurd List.mem_cons_self tab

theorem Token.Beside.start_le {a b : Token} (beside : a.Beside b) : b.start ≤ a.stop + 1 := by
  rcases beside with start | ⟨_, _, start⟩ <;> omega

/-- Behind a token that is no comma, the next one follows at once. -/
theorem Token.Beside.start_eq {a b : Token} (beside : a.Beside b)
    (noComma : a.spelled ≠ (.operator, [','])) : b.start = a.stop := by
  rcases beside with start | ⟨mark, _⟩
  · exact start
  · exact absurd mark noComma

namespace ListRest

/-- A mark and the character behind it, with what may stand between them, and the text where the
tokens behind them begin. -/
theorem exists_of_mark {m : Char} {mark character : Token} {item : Text}
    (tiling : Tiling defaultWhitespace n t (mark :: character :: tokens)) (tab : '\t' ∉ t)
    (start : mark.start = n) (marked : mark.spelled = (.operator, [m]))
    (literal : character.spelled = (.character, item))
    (lexeme : Spelling character.kind character.lexeme) (length : item.length = 3)
    (beside : (mark :: character :: tokens).IsChain Token.Beside) :
    ∃ gap c u, (gap = [' '] ∨ gap = []) ∧ c ∉ characterExcluded ∧
      t = m :: (gap ++ '\'' :: c :: '\'' :: u) ∧ mark = ⟨.operator, [m], n⟩ ∧
      character = ⟨.character, ['\'', c, '\''], (n + 1 + gap.length : Nat)⟩ ∧
      Tiling defaultWhitespace (n + 1 + gap.length + 3) u tokens ∧ '\t' ∉ u ∧
      ∀ token ∈ tokens.head?, token.start = (n + 1 + gap.length + 3 : Nat) := by
  obtain ⟨gapped, chain⟩ := List.isChain_cons_cons.mp beside
  obtain rfl := Token.eq_of_spelled marked start
  obtain ⟨u, rfl, rest⟩ := tiling.exists_of_start rfl
  obtain ⟨gap, u, white, rfl, place, behind⟩ := rest.exists_of_cons
  obtain rfl := Token.eq_of_spelled literal place
  obtain ⟨c, excluded, rfl⟩ := lexeme.exists_of_length length
  have near := gapped.start_le
  simp only [Token.stop, List.length_singleton] at near
  have short : gap = [' '] ∨ gap = [] :=
    short_of_length white (fun mem => tab (by simp [mem])) (by omega)
  refine ⟨gap, c, u, short, excluded, rfl, rfl, rfl, behind, fun mem => tab (by simp [mem]), ?_⟩
  intro next head
  simpa [Token.stop] using (chain.rel_head? head).start_eq (by simp [Token.spelled])

/-- A text with such tokens and gaps is the rest of a list, with a gap behind it. -/
theorem of_tiling {items : List Text} (tiling : Tiling defaultWhitespace n t tokens)
    (tab : '\t' ∉ t) (lexemes : ∀ token ∈ tokens, Spelling token.kind token.lexeme)
    (lengths : ∀ item ∈ items, item.length = 3)
    (spelled : tokens.map Token.spelled =
      items.flatMap (fun item => [(.operator, [',']), (.character, item)]) ++ [(.operator, [']'])])
    (first : ∀ token ∈ tokens.head?, token.start = n) (beside : tokens.IsChain Token.Beside) :
    ∃ u gap, t = u ++ gap ∧ ListRest n u tokens := by
  -- on the characters of the list: each takes one comma and one literal off the tokens
  induction items generalizing n t tokens with
  | nil =>
    obtain ⟨final, rfl, mark⟩ := List.map_eq_singleton_iff.mp spelled
    obtain rfl := Token.eq_of_spelled mark (first final rfl)
    obtain ⟨gap, rfl, _⟩ := tiling.exists_of_start rfl
    exact ⟨_, gap, rfl, .close⟩
  | cons item items ih =>
    obtain ⟨length, shorts⟩ := List.forall_mem_cons.mp lengths
    obtain ⟨comma, _, rfl, mark, behind⟩ := List.map_eq_cons_iff.mp spelled
    obtain ⟨character, tokens, rfl, literal, others⟩ := List.map_eq_cons_iff.mp behind
    obtain ⟨_, lexeme, further⟩ : _ ∧ _ ∧ _ := by simpa only [List.forall_mem_cons] using lexemes
    obtain ⟨gap, c, u, short, excluded, rfl, rfl, rfl, rest, tab, start⟩ :=
      exists_of_mark tiling tab (first comma rfl) mark literal lexeme length beside
    obtain ⟨v, after, rfl, list⟩ := ih rest tab further shorts others start beside.tail.tail
    exact ⟨_, after, by simp, .item short excluded list⟩

end ListRest

/-! ## Whole lists -/

theorem intersperse_cons {α : Type} (separator a : α) (l : List α) :
    (a :: l).intersperse separator = a :: l.flatMap fun b => [separator, b] := by
  induction l generalizing a with
  | nil => rfl
  | cons b l ih => simp [List.intersperse, ih]

/-- What stands outside the tokens of a text without tabs is spaces. -/
theorem blank_of_tiling (tiling : Tiling defaultWhitespace 0 t tokens) (tab : '\t' ∉ t) (i : Nat)
    (c : Char) (place : t[i]? = some c)
    (outside : ∀ token ∈ tokens, ¬ (token.start ≤ i ∧ i < token.stop)) : c = ' ' := by
  have white : c ∈ defaultWhitespace :=
    tiling.skipped_of_outside place (by simpa only [Nat.zero_add] using outside)
  have blank : c = ' ' ∨ c = '\t' := by simpa [defaultWhitespace] using white
  refine blank.resolve_right ?_
  rintro rfl
  exact tab (List.mem_of_getElem? place)

namespace CharacterList

theorem read (list : CharacterList t tokens) (plain : ∀ c ∈ t, c ∉ ['\t', '\x08', '\x0c']) :
    Options.standard.read t = ⟨tokens, [], none⟩ := by
  cases list with
  | empty => decide +kernel
  | @items t c tokens excluded rest =>
    have here : c ∉ ['\t', '\x08', '\x0c'] := plain c (by simp)
    have behind := rest.read fun d mem => plain d (by simp [mem])
    rw [Options.read_mark (by decide), Options.read_plain excluded here]
    simp only [Reading.shift_cons, Reading.shift_shift, behind]
    simp [Reading.cons, Token.shift]

theorem spelled (list : CharacterList t tokens) :
    ∃ items : List Text, (∀ item ∈ items, item.length = 3) ∧
      tokens.map Token.spelled = (.operator, ['[']) ::
        ((items.map fun item => (Kind.character, item)).intersperse (.operator, [',']) ++
          [(.operator, [']'])]) := by
  cases list with
  | empty => exact ⟨[], by simp, rfl⟩
  | @items t c tokens _ rest =>
    obtain ⟨items, lengths, spelled⟩ := rest.spelled
    refine ⟨['\'', c, '\''] :: items, List.forall_mem_cons.mpr ⟨rfl, lengths⟩, ?_⟩
    simp [spelled, intersperse_cons, List.flatMap_map, Token.spelled]

theorem last (list : CharacterList t tokens) :
    ∃ (before : List Token) (final : Token),
      tokens = before ++ [final] ∧ final.stop = t.length := by
  cases list with
  | empty => exact ⟨[_], _, rfl, rfl⟩
  | items _ rest =>
    obtain ⟨before, final, rfl, stop⟩ := rest.last
    refine ⟨_ :: _ :: before, final, rfl, ?_⟩
    rw [stop]
    simp only [List.length_cons]
    omega

theorem beside (list : CharacterList t tokens) : tokens.IsChain Token.Beside := by
  cases list with
  | empty => exact .cons_cons (.inl rfl) (.singleton _)
  | items _ rest =>
    refine .cons_cons (.inl rfl) (rest.beside.cons ?_)
    intro next head
    exact .inl (rest.first next head)

theorem formsList (list : CharacterList t tokens) (tab : '\t' ∉ t)
    (tiling : Tiling defaultWhitespace 0 t tokens) : FormsList t tokens where
  spelled := list.spelled
  first := by cases list <;> simp
  last := by
    obtain ⟨before, final, rfl, stop⟩ := list.last
    rw [List.getLast?_concat]
    rintro token ⟨⟩
    exact stop
  beside := list.beside
  blank := blank_of_tiling tiling tab

/-- A text with such tokens and gaps is a list, with a gap behind it. -/
theorem of_tiling {items : List Text} (tiling : Tiling defaultWhitespace 0 t tokens)
    (tab : '\t' ∉ t) (lexemes : ∀ token ∈ tokens, Spelling token.kind token.lexeme)
    (lengths : ∀ item ∈ items, item.length = 3)
    (spelled : tokens.map Token.spelled = (.operator, ['[']) ::
      ((items.map fun item => (Kind.character, item)).intersperse (.operator, [',']) ++
        [(.operator, [']'])]))
    (first : ∀ token ∈ tokens.head?, token.start = 0) (beside : tokens.IsChain Token.Beside) :
    ∃ u gap, t = u ++ gap ∧ CharacterList u tokens := by
  obtain ⟨bracket, tokens, rfl, mark, behind⟩ := List.map_eq_cons_iff.mp spelled
  have noComma : bracket.spelled ≠ (.operator, [',']) := by simp [mark]
  cases items with
  | nil =>
    obtain ⟨final, rfl, close⟩ := List.map_eq_singleton_iff.mp behind
    obtain rfl := Token.eq_of_spelled mark (first bracket rfl)
    obtain ⟨u, rfl, rest⟩ := tiling.exists_of_start rfl
    have start := (beside.rel_head? rfl).start_eq noComma
    obtain rfl := Token.eq_of_spelled close start
    obtain ⟨gap, rfl, _⟩ := rest.exists_of_start start
    exact ⟨_, gap, rfl, .empty⟩
  | cons item items =>
    obtain ⟨length, shorts⟩ := List.forall_mem_cons.mp lengths
    rw [List.map_cons, intersperse_cons, List.flatMap_map, List.cons_append] at behind
    obtain ⟨character, tokens, rfl, literal, others⟩ := List.map_eq_cons_iff.mp behind
    obtain ⟨_, lexeme, further⟩ : _ ∧ _ ∧ _ := by simpa only [List.forall_mem_cons] using lexemes
    have start := (beside.rel_head? rfl).start_eq noComma
    obtain ⟨gap, c, u, _, excluded, rfl, rfl, rfl, rest, noTab, place⟩ :=
      ListRest.exists_of_mark tiling tab (first bracket rfl) mark literal lexeme length beside
    obtain rfl : gap = [] := by
      simp only [Token.stop, List.length_singleton] at start
      exact List.length_eq_zero_iff.mp (by omega)
    obtain ⟨v, after, rfl, list⟩ :=
      ListRest.of_tiling rest noTab further shorts others place beside.tail.tail
    exact ⟨_, after, rfl, .items excluded list⟩

theorem of_formsList (forms : FormsList t tokens) (tab : '\t' ∉ t)
    (tiling : Tiling defaultWhitespace 0 t tokens)
    (lexemes : ∀ token ∈ tokens, Spelling token.kind token.lexeme) : CharacterList t tokens := by
  obtain ⟨⟨items, lengths, spelled⟩, first, last, beside, _⟩ := forms
  obtain ⟨u, gap, rfl, list⟩ := of_tiling tiling tab lexemes lengths spelled first beside
  obtain ⟨before, final, rfl, stop⟩ := list.last
  have stop' := last final (by simp)
  rw [stop, List.length_append] at stop'
  obtain rfl : gap = [] := List.length_eq_zero_iff.mp (by omega)
  rwa [List.append_nil]

end CharacterList

/-- The pattern for lists of characters accepts exactly the texts that strict lexing finds to be
lists, whatever the characters are. -/
theorem characterList_pattern_iff_lex (filename t : Text)
    (plain : ∀ c ∈ t, c ∉ ['\t', '\x08', '\x0c']) :
    ∃ p, Pattern.find "CHARACTER_LIST".toList = .ok p ∧ (p.accepts t = true ↔
      ∃ tokens, ((Lexer.new .standard filename t).lex).1 = .ok tokens ∧ FormsList t tokens) := by
  have tab : '\t' ∉ t := fun mem => plain _ mem List.mem_cons_self
  refine ⟨.characterList, Pattern.find_name .characterList, ?_⟩
  rw [Pattern.accepts, Regex.accepts_iff_mem_language, Pattern.regex,
    Pattern.mem_language_characterListRegex]
  simp only [Lexer.lex_new_eq_ok_iff]
  constructor
  · rintro ⟨tokens, list⟩
    have read := list.read plain
    have tiling := Options.standard.tiling_read t (by rw [read]) 0
    rw [Reading.shift_zero, read] at tiling
    exact ⟨tokens, by simp [read], list.formsList tab tiling⟩
  · rintro ⟨tokens, ⟨finished, rfl⟩, forms⟩
    have tiling := Options.standard.tiling_read t finished 0
    rw [Reading.shift_zero] at tiling
    exact ⟨_, .of_formsList forms tab tiling fun token mem =>
      (Options.readable_of_mem rfl mem).spelled⟩

/-- A comma, a closing bracket and a space in quotes are characters of the list. -/
theorem characterList_pattern_iff_lex_marks :
    (∀ c ∈ "[',', ']',' ']".toList, c ∉ ['\t', '\x08', '\x0c']) ∧
    Pattern.characterList.accepts "[',', ']',' ']".toList = true ∧
    ∃ tokens, ((Lexer.new .standard [] "[',', ']',' ']".toList).lex).1 = .ok tokens ∧
      FormsList "[',', ']',' ']".toList tokens := by
  have plain : ∀ c ∈ "[',', ']',' ']".toList, c ∉ ['\t', '\x08', '\x0c'] :=
    forall_mem_of_all (by decide)
  have accepted : Pattern.characterList.accepts "[',', ']',' ']".toList = true := by
    decide +kernel
  obtain ⟨p, found, same⟩ := characterList_pattern_iff_lex [] _ plain
  obtain rfl : .characterList = p :=
    Except.ok.inj ((Pattern.find_name .characterList).symm.trans found)
  exact ⟨plain, accepted, same.mp accepted⟩

end Lexis
