import Lexis.Proofs.LiteralAgreement
import Lexis.Proofs.Reading

/-!
# What lenient reading notes

Lenient reading accepts malformed literals and notes their faults; strict reading stops at the first
one. The two divide numbers differently (`-.5` is one token or three), but only within a stretch of
digits, signs and points, in which no literal begins and no fault lies; so both come to the end of
the stretch together (`Options.read_numberless`). Outside such stretches lenient reading should
follow strict reading (`Reading.Follows`): give out the same tokens until a literal goes wrong, and
then note what strict reading stops at.

It does so exactly if it keeps step with the escapes of the strings and gets to see the fault
(`Reading.KeepsStep`). A text for which it does not is found at either place where the two scanners
of a literal part: `diagnostics_lenient_backslashes`, where the text is without fault,
`diagnostics_lenient_escaped_quote`, where the fault is missed, and the `''` at the end of a text.

Results:
1. `Options.read_numberless`: in either mode, numbers aside, a text is read like what stands behind
   the digits, signs and points in front.
2. `Options.follows_iff`: when lenient reading follows strict reading.
3. `diagnostics_lenient_of_strict_ok`, `head?_diagnostics_lenient_of_strict_error`: the same for
   lexing.
-/

namespace Lexis

open Alphabet

/-! ## Stretches of digits, signs and points -/

/-- What numbers are made of. -/
def numeric : Text := '-' :: '.' :: digits

/-- Whether a token is a number, a minus sign or a point. -/
def Token.isNumeric (t : Token) : Bool :=
  t.kind = .integer || t.kind = .decimal ||
    (t.kind = .operator && (t.lexeme = ['-'] || t.lexeme = ['.']))

/-- The reading without numbers, minus signs and points. -/
def Reading.numberless (r : Reading) : Reading :=
  { r with tokens := r.tokens.filter fun t => !t.isNumeric }

@[simp] theorem Token.isNumeric_shift (n : Nat) (t : Token) :
    (t.shift n).isNumeric = t.isNumeric := rfl

namespace Reading

@[simp] theorem numberless_shift (n : Nat) (r : Reading) :
    (r.shift n).numberless = r.numberless.shift n :=
  without_shift Token.isNumeric_shift n r

theorem numberless_cons_of_numeric {t : Token} (h : t.isNumeric = true) (r : Reading) :
    (r.cons t none).numberless = r.numberless :=
  without_cons_of_pos h r

end Reading

theorem mem_numeric_of_mem_digits {c : Char} (h : c ∈ digits) : c ∈ numeric :=
  List.mem_cons_of_mem _ (List.mem_cons_of_mem _ h)

namespace Scan

variable {mode : Mode} {c : Char} {t : Text}

theorem tail_numeric : ∀ d ∈ t.take (Numeral.tail mode t).2, d ∈ numeric := by
  have run {u : Text} {d : Char} (h : d ∈ u.takeWhile (· ∈ digits)) : d ∈ numeric :=
    mem_numeric_of_mem_digits (by simpa using List.mem_takeWhile_imp h)
  unfold Numeral.tail
  cases fraction : Numeral.fraction? mode (t.drop (Numeral.digitRun t)) with
  | none =>
    simp only [Numeral.take_digitRun]
    exact fun d hd => run hd
  | some n =>
    obtain ⟨v, _, _, read⟩ := Numeral.take_of_fraction? fraction
    simp only [read, List.mem_append, List.mem_cons]
    rintro d (mem | rfl | mem)
    · exact run mem
    · decide
    · exact run mem

theorem kind_tail (mode : Mode) (t : Text) :
    (Numeral.tail mode t).1 = .integer ∨ (Numeral.tail mode t).1 = .decimal := by
  unfold Numeral.tail
  split
  · exact .inr rfl
  · exact .inl rfl

/-- A token that begins with a digit, a sign or a point is made of such and has no flaw. -/
theorem token_of_numeric (mode : Mode) (t : Text) (h : c ∈ numeric) :
    ∃ kind n, ofText mode c t = .token kind n none ∧ (∀ d ∈ t.take n, d ∈ numeric) ∧
      ∀ start, Token.isNumeric ⟨kind, (c :: t).take (n + 1), start⟩ = true := by
  obtain ⟨ident, quote, double, space⟩ :
      c ∉ identStart ∧ c ≠ '\'' ∧ c ≠ '"' ∧ c ≠ ' ' := by
    have all : ∀ d ∈ numeric, d ∉ identStart ∧ d ≠ '\'' ∧ d ≠ '"' ∧ d ≠ ' ' :=
      forall_mem_of_all (by decide +kernel)
    exact all c h
  rw [ofText, if_neg ident]
  by_cases number : startsNumber mode c t = true
  · rw [if_pos number, Numeral.scan]
    by_cases alone : c = '0' ∧ t.head? ≠ some '.'
    · exact ⟨.integer, 0, if_pos alone, by simp, fun _ => rfl⟩
    · refine ⟨_, _, if_neg alone, tail_numeric, fun start => ?_⟩
      rcases kind_tail mode t with kind | kind <;> simp [Token.isNumeric, kind]
  · rw [if_neg number, if_neg fun h => quote h.1, if_neg double, if_neg space]
    have digit : c ∉ digits := fun digit => number (by simp [startsNumber, digit])
    have alone : operatorTail c t = 0 ∧ (c = '-' ∨ c = '.') := by
      simp only [numeric, List.mem_cons, digit, or_false] at h
      rcases h with rfl | rfl
      · exact ⟨rfl, .inl rfl⟩
      · exact ⟨rfl, .inr rfl⟩
    rw [alone.1]
    refine ⟨.operator, 0, rfl, by simp, fun start => ?_⟩
    rcases alone.2 with rfl | rfl <;> rfl

end Scan

/-! ## Past a stretch -/

namespace Options

variable {o : Options} {t : Text}

theorem takeWhile_numeric_of_take {n : Nat} (le : n ≤ t.length)
    (all : ∀ d ∈ t.take n, d ∈ numeric) :
    (t.takeWhile (· ∈ numeric)).length = n + ((t.drop n).takeWhile (· ∈ numeric)).length ∧
    t.dropWhile (· ∈ numeric) = (t.drop n).dropWhile (· ∈ numeric) := by
  have all' : ∀ d ∈ t.take n, decide (d ∈ numeric) = true := fun d hd => decide_eq_true (all d hd)
  have parts := List.take_append_drop n t
  have length : (t.take n).length = n := by simp [le]
  constructor
  · rw [← parts, List.takeWhile_append_of_pos all', List.length_append, length, parts]
  · rw [← parts, List.dropWhile_append_of_pos all', parts]

/-- Numbers aside, a text is read like what stands behind the digits, signs and points in front. -/
theorem read_numberless (o : Options) (t : Text) : (o.read t).numberless =
    ((o.read (t.dropWhile (· ∈ numeric))).numberless).shift
      (t.takeWhile (· ∈ numeric)).length := by
  induction t using o.read_induction with
  | nil => simp
  | white c t white ih =>
    by_cases h : c ∈ numeric
    · rw [read_white white, Reading.numberless_shift, ih]
      simp [h, Nat.add_comm]
    · simp [h]
  | token c t kind further flaw black scan le ih =>
    by_cases h : c ∈ numeric
    -- wherever the token ends, it ends within the stretch, and what is left is read the same way
    · obtain ⟨kind', n, scan', all, isNumeric⟩ := Scan.token_of_numeric o.mode t h
      obtain ⟨rfl, rfl, rfl⟩ := Scan.token.inj (scan.symm.trans scan')
      obtain ⟨length, rest⟩ := takeWhile_numeric_of_take le all
      rw [read_token black scan, Option.map_none,
        Reading.numberless_cons_of_numeric (isNumeric 0), Reading.numberless_shift, ih]
      simp only [h, decide_true, List.takeWhile_cons_of_pos, List.dropWhile_cons_of_pos,
        List.length_cons, length, rest, Reading.shift_shift]
      congr 1
      omega
    · simp [h]
  | refused c t flaw black scan =>
    by_cases h : c ∈ numeric
    · obtain ⟨_, _, scan', _⟩ := Scan.token_of_numeric o.mode t h
      cases scan.symm.trans scan'
    · simp [h]

end Options

/-! ## The rule that applies, in both modes -/

namespace Scan

variable {mode : Mode} {c : Char} {t : Text}

/-- Away from numbers and literals, the modes apply the same rule. -/
theorem ofText_lenient_eq_strict (number : c ∉ numeric) (quote : c ≠ '\'') (double : c ≠ '"') :
    ofText .lenient c t = ofText .strict c t := by
  have digit : c ∉ digits := fun h => number (mem_numeric_of_mem_digits h)
  have sign : c ≠ '-' := by
    rintro rfl
    exact number (by decide)
  simp [ofText, startsNumber, digit, sign, quote, double]

end Scan

/-! ## Lenient reading comes to the end -/

namespace CharacterLiteral

theorem exists_lenientClose (depth : Nat) (noted : Option Flaw) (t : Text) :
    ∃ n flaw, lenientClose depth noted t = .token .character n flaw := by
  unfold lenientClose
  split <;> exact ⟨_, _, rfl⟩

theorem exists_lenientBody (depth : Nat) (noted : Option Flaw) (t : Text) :
    ∃ n flaw, lenientBody depth noted t = .token .character n flaw := by
  obtain ⟨_, _, _, _, same⟩ := exists_lenientBody_eq depth noted t
  rw [same]
  exact exists_lenientClose _ _ _

/-- Whatever is behind a single quote, lenient reading makes a character literal of it. -/
theorem exists_lenient_token (t : Text) : ∃ n flaw, lenient t = .token .character n flaw := by
  unfold lenient
  split
  · split
    · split
      · exact exists_lenientClose _ _ _
      · exact ⟨_, _, rfl⟩
    · split <;> exact exists_lenientBody _ _ _
  · exact ⟨_, _, rfl⟩

end CharacterLiteral

/-- Whatever is behind a double quote, lenient reading makes a string literal of it. -/
theorem StringLiteral.exists_lenient_token (depth : Nat) (escaped : Bool) (noted : Option Flaw)
    (t : Text) : ∃ n flaw, lenient depth escaped noted t = .token .string n flaw := by
  fun_induction lenient depth escaped noted t with
  | case5 _ _ _ _ _ _ _ _ _ ih => exact ih
  | case7 _ _ _ _ _ _ _ _ ih => exact ih
  | _ => exact ⟨_, _, rfl⟩

/-- In lenient reading, nothing but a space is refused. -/
theorem Scan.lenient_ne_refused {c : Char} (space : c ≠ ' ') (t : Text) (flaw : Flaw) :
    Scan.ofText .lenient c t ≠ .refused flaw := by
  unfold ofText Numeral.scan
  split
  · exact Scan.noConfusion
  split
  · split <;> exact Scan.noConfusion
  split
  · intro refused
    obtain ⟨_, _, scan⟩ := CharacterLiteral.exists_lenient_token t
    cases scan.symm.trans refused
  split
  · intro refused
    obtain ⟨_, _, scan⟩ := StringLiteral.exists_lenient_token 1 false none t
    cases scan.symm.trans refused
  · exact Scan.noConfusion

/-- Lenient reading is never refused. -/
theorem Options.refusal_lenient (o : Options) (t : Text) :
    ((o.inMode .lenient).read t).refusal = none := by
  induction t using (o.inMode .lenient).read_induction with
  | nil => rw [read_nil, Reading.finished]
  | white c t white ih => rw [read_white white, Reading.shift, ih, Option.map_none]
  | token c t kind further flaw black scan _ ih =>
    rw [read_token black scan, Reading.cons, Reading.shift, ih, Option.map_none]
  | refused c t flaw black scan =>
    exact absurd scan (Scan.lenient_ne_refused (ne_space_of_not_mem black) t flaw)

/-! ## Following -/

/-- What the fault takes to be noted in lenient reading too. Of a character literal, something must
stand behind the opening quote, and more than the character to be blamed if that comes first. Of a
string, lenient reading must keep step with the escapes, and a line end that leaves the string
unterminated must not be the last character of the text. -/
structure Fault.Seen (t : Text) (f : Fault) : Prop where
  character : t[f.start]? = some '\'' →
    f.start + 1 ≠ t.length ∧ (f.offset = f.start + 1 → f.offset + 1 ≠ t.length)
  string : t[f.start]? = some '"' → StringLiteral.keepsStep .level (t.drop (f.start + 1)) = true ∧
    (f.cause = .unterminated .string → f.offset + 1 ≠ t.length)

instance {t : Text} {f : Fault} : Decidable (f.Seen t) :=
  decidable_of_iff
    ((t[f.start]? = some '\'' →
      f.start + 1 ≠ t.length ∧ (f.offset = f.start + 1 → f.offset + 1 ≠ t.length)) ∧
    (t[f.start]? = some '"' → StringLiteral.keepsStep .level (t.drop (f.start + 1)) = true ∧
      (f.cause = .unterminated .string → f.offset + 1 ≠ t.length)))
    ⟨fun h => ⟨h.1, h.2⟩, fun h => ⟨h.character, h.string⟩⟩

namespace Reading

/-- Lenient reading keeps step with the escapes of the strings that strict reading gives out, and
notes the fault that ends it. -/
structure KeepsStep (t : Text) (r : Reading) : Prop where
  strings : ∀ token ∈ r.tokens, token.kind = .string →
    StringLiteral.keepsStep .level token.lexeme.tail = true
  refusal : ∀ fault ∈ r.refusal, fault.Seen t

/-- A reading follows another: it gives out the same tokens first, and no others if nothing ends the
other, and the first fault it notes is the one that ends the other. -/
structure Follows (lenient strict : Reading) : Prop where
  tokens : strict.tokens <+: lenient.tokens
  whole : strict.refusal = none → lenient.tokens = strict.tokens
  first : lenient.accepted.head? = strict.refusal

end Reading

/-! ### Moving along -/

theorem Token.shift_injective (n : Nat) : Function.Injective (Token.shift n) := by
  rintro ⟨_, _, _⟩ ⟨_, _, _⟩ same
  simpa [shift] using same

theorem Fault.shift_injective (n : Nat) : Function.Injective (Fault.shift n) := by
  rintro ⟨_, _, _⟩ ⟨_, _, _⟩ same
  simpa [shift] using same

theorem Fault.seen_shift (p t : Text) (f : Fault) :
    (f.shift p.length).Seen (p ++ t) ↔ f.Seen t := by
  have at_start : (p ++ t)[(f.shift p.length).start]? = t[f.start]? := by
    rw [Fault.shift, List.getElem?_append_right (Nat.le_add_right _ _), Nat.add_sub_cancel_left]
  have behind : (p ++ t).drop ((f.shift p.length).start + 1) = t.drop (f.start + 1) := by
    rw [Fault.shift, Nat.add_assoc, List.drop_length_add_append]
  have place {a b : Nat} : p.length + a = p.length + b ↔ a = b := Nat.add_left_cancel_iff
  constructor
  · rintro ⟨character, string⟩
    rw [at_start] at character string
    rw [behind] at string
    simp only [Fault.shift, List.length_append, Nat.add_assoc, ne_eq, place] at character string
    exact ⟨character, string⟩
  · rintro ⟨character, string⟩
    constructor
    · rw [at_start]
      simpa only [Fault.shift, List.length_append, Nat.add_assoc, ne_eq, place] using character
    · rw [at_start, behind]
      simpa only [Fault.shift, List.length_append, Nat.add_assoc, ne_eq, place] using string

namespace Reading

variable {l r : Reading} {t : Text} {token : Token}

theorem keepsStep_shift (p t : Text) (r : Reading) :
    (r.shift p.length).KeepsStep (p ++ t) ↔ r.KeepsStep t := by
  constructor
  · rintro ⟨strings, refusal⟩
    refine ⟨fun token mem => ?_, ?_⟩
    · exact strings (token.shift p.length) (List.mem_map_of_mem mem)
    · exact fun fault mem => (fault.seen_shift p t).mp (refusal _ (Option.mem_map_of_mem _ mem))
  · rintro ⟨strings, refusal⟩
    constructor
    · intro token mem
      obtain ⟨other, mem', rfl⟩ := List.mem_map.mp mem
      exact strings other mem'
    · intro fault mem
      obtain ⟨other, mem', rfl⟩ := Option.map_eq_some_iff.mp mem
      exact (other.seen_shift p t).mpr (refusal other mem')

/-- Numbers have no say in it. -/
theorem keepsStep_numberless : r.numberless.KeepsStep t ↔ r.KeepsStep t := by
  constructor
  · rintro ⟨strings, refusal⟩
    refine ⟨fun token mem kind => strings token (List.mem_filter.mpr ⟨mem, ?_⟩) kind, refusal⟩
    simp [Token.isNumeric, kind]
  · rintro ⟨strings, refusal⟩
    exact ⟨fun token mem => strings token (List.mem_filter.mp mem).1, refusal⟩

theorem keepsStep_cons : (r.cons token none).KeepsStep t ↔
    (token.kind = .string → StringLiteral.keepsStep .level token.lexeme.tail = true) ∧
      r.KeepsStep t := by
  constructor
  · rintro ⟨strings, refusal⟩
    exact ⟨strings token List.mem_cons_self,
      fun other mem => strings other (List.mem_cons_of_mem _ mem), refusal⟩
  · rintro ⟨string, strings, refusal⟩
    exact ⟨List.forall_mem_cons.mpr ⟨string, strings⟩, refusal⟩

theorem follows_shift (n : Nat) : (l.shift n).Follows (r.shift n) ↔ l.Follows r := by
  have injective := Option.map_injective (Fault.shift_injective n)
  have tokens := Token.shift_injective n
  constructor
  · rintro ⟨pre, whole, first⟩
    refine ⟨(List.prefix_map_iff_of_injective tokens).mp pre, fun ended => ?_, ?_⟩
    · exact (List.map_inj_right fun _ _ same => tokens same).mp
        (whole (Option.map_eq_none_iff.mpr ended))
    · exact injective (List.head?_map.symm.trans first)
  · rintro ⟨pre, whole, first⟩
    refine ⟨pre.map _, fun ended => ?_, ?_⟩
    · exact congrArg (List.map _) (whole (Option.map_eq_none_iff.mp ended))
    · exact List.head?_map.trans (congrArg _ first)

theorem follows_cons : (l.cons token none).Follows (r.cons token none) ↔ l.Follows r := by
  constructor
  · rintro ⟨pre, whole, first⟩
    exact ⟨(List.prefix_cons_inj token).mp pre, fun ended => (List.cons.inj (whole ended)).2, first⟩
  · rintro ⟨pre, whole, first⟩
    exact ⟨(List.prefix_cons_inj token).mpr pre, fun ended => congrArg (token :: ·) (whole ended),
      first⟩

theorem follows_numberless_cons :
    (l.cons token none).numberless.Follows (r.cons token none).numberless ↔
      l.numberless.Follows r.numberless := by
  cases number : token.isNumeric with
  | true => rw [numberless_cons_of_numeric number, numberless_cons_of_numeric number]
  | false =>
    have kept (r : Reading) : (r.cons token none).numberless = r.numberless.cons token none :=
      without_cons_of_neg number none r
    rw [kept, kept, follows_cons]

end Reading

namespace Options

variable {o : Options} {c : Char} {t : Text}

/-- Lenient reading follows strict reading, numbers aside, just if it keeps step. -/
def Agrees (o : Options) (t : Text) : Prop :=
  ((o.inMode .lenient).read t).numberless.Follows ((o.inMode .strict).read t).numberless ↔
    ((o.inMode .strict).read t).KeepsStep t

/-- The modes need not come to the end of a number together, but they leave the stretch of digits,
signs and points together. -/
theorem Agrees.of_numeric (h : o.Agrees (t.dropWhile (· ∈ numeric))) : o.Agrees t := by
  have parts := List.takeWhile_append_dropWhile (p := (· ∈ numeric)) (l := t)
  have step := Reading.keepsStep_shift (t.takeWhile (· ∈ numeric)) (t.dropWhile (· ∈ numeric))
    ((o.inMode .strict).read (t.dropWhile (· ∈ numeric))).numberless
  rw [parts, ← read_numberless, Reading.keepsStep_numberless, Reading.keepsStep_numberless] at step
  rw [Agrees, read_numberless, (o.inMode .strict).read_numberless, Reading.follows_shift, step]
  exact h

theorem Agrees.of_white (white : c ∈ o.whitespace) (h : o.Agrees t) : o.Agrees (c :: t) := by
  have strict := read_white (o := o.inMode .strict) (t := t) white
  have lenient := read_white (o := o.inMode .lenient) (t := t) white
  rw [Agrees, strict, lenient, Reading.numberless_shift, Reading.numberless_shift,
    Reading.follows_shift]
  exact h.trans (Reading.keepsStep_shift [c] t _).symm

/-- What is noted behind a token lies behind it. -/
theorem lt_start_of_shift {r : Reading} {n : Nat} {fault : Fault}
    (mem : fault ∈ (r.shift (n + 1)).accepted.head?) : 0 < fault.start := by
  obtain ⟨other, _, rfl⟩ := List.mem_map.mp (List.mem_of_mem_head? mem)
  exact Nat.lt_of_lt_of_le (Nat.succ_pos n) (Nat.le_add_right _ _)

theorem Agrees.of_token {kind : Kind} {n m : Nat} {flaw : Option Flaw} (black : c ∉ o.whitespace)
    (strict : Scan.ofText .strict c t = .token kind n none)
    (lenient : Scan.ofText .lenient c t = .token kind m flaw)
    (same : m = n ∧ flaw = none ↔
      (kind = .string → StringLiteral.keepsStep .level (t.take n) = true))
    (h : o.Agrees (t.drop n)) : o.Agrees (c :: t) := by
  have strict' := read_token (o := o.inMode .strict) black strict
  have lenient' := read_token (o := o.inMode .lenient) black lenient
  have parts : (c :: t).take (n + 1) ++ t.drop n = c :: t := List.take_append_drop (n + 1) (c :: t)
  have length : ((c :: t).take (n + 1)).length = n + 1 := by
    simp [Scan.further_le_of_token strict]
  have step := Reading.keepsStep_shift ((c :: t).take (n + 1)) (t.drop n)
    ((o.inMode .strict).read (t.drop n))
  rw [parts, length] at step
  rw [Agrees] at h ⊢
  rw [strict', Option.map_none, Reading.keepsStep_cons, step, ← h, lenient']
  by_cases kept : kind = .string → StringLiteral.keepsStep .level (t.take n) = true
  · obtain ⟨rfl, rfl⟩ := same.mpr kept
    rw [Option.map_none, Reading.follows_numberless_cons, Reading.numberless_shift,
      Reading.numberless_shift, Reading.follows_shift]
    exact (and_iff_right kept).symm
  · refine iff_of_false (fun follows => kept (same.mp ?_)) (fun all => kept all.1)
    obtain ⟨rfl, -⟩ := Classical.not_imp.mp kept
    cases flaw with
    | some f =>
      -- the flaw belongs to the first token, and strict reading goes on behind it
      have first := follows.first
      obtain ⟨fault, mem, place⟩ := Option.map_eq_some_iff.mp first.symm
      have start := congrArg Fault.start place
      exact absurd start (Nat.ne_of_gt (Nat.lt_of_lt_of_le (Nat.succ_pos n) (Nat.le_add_right _ _)))
    | none =>
      refine ⟨?_, rfl⟩
      obtain ⟨behind, whole⟩ := follows.tokens
      have lexeme := congrArg Token.lexeme (List.cons.inj whole).1
      have lengths := congrArg List.length lexeme
      have := Scan.further_le_of_token lenient
      have := Scan.further_le_of_token strict
      simp at lengths
      omega

theorem Agrees.of_refused {kind : Kind} {m : Nat} {flaw : Flaw} {noted : Option Flaw}
    (black : c ∉ o.whitespace) (strict : Scan.ofText .strict c t = .refused flaw)
    (lenient : Scan.ofText .lenient c t = .token kind m noted)
    (same : noted = some flaw ↔ (flaw.place 0).Seen (c :: t)) : o.Agrees (c :: t) := by
  rw [Agrees, read_refused (o := o.inMode .strict) black strict,
    read_token (o := o.inMode .lenient) black lenient]
  constructor
  · rintro ⟨-, -, first⟩
    refine ⟨fun _ mem => absurd mem List.not_mem_nil, ?_⟩
    rintro _ ⟨⟩
    refine same.mp ?_
    cases noted with
    | some f =>
      cases f
      cases flaw
      simpa [Flaw.place, Reading.cons, Reading.numberless, Reading.refused] using first
    | none => exact absurd (lt_start_of_shift first) (Nat.lt_irrefl 0)
  · rintro ⟨-, refusal⟩
    obtain rfl := same.mpr (refusal _ rfl)
    exact ⟨List.nil_prefix, fun ended => absurd ended (Option.some_ne_none _), rfl⟩

theorem agrees_character (black : '\'' ∉ o.whitespace) (ih : ∀ n, o.Agrees (t.drop n)) :
    o.Agrees ('\'' :: t) := by
  have strict : Scan.ofText .strict '\'' t = CharacterLiteral.strict t :=
    Scan.ofText_quote (.inl rfl)
  have lenient (ne : t ≠ []) : Scan.ofText .lenient '\'' t = CharacterLiteral.lenient t :=
    Scan.ofText_quote (.inr ne)
  cases scan : CharacterLiteral.strict t with
  | token kind n flaw =>
    obtain ⟨item, _, pre, rfl, rfl, rfl⟩ := CharacterLiteral.strict_eq_token_iff.mp scan
    have ne : t ≠ [] := by
      rintro rfl
      cases scan
    refine Agrees.of_token black (strict.trans scan)
      ((lenient ne).trans (CharacterLiteral.lenient_of_strict_token scan)) ?_ (ih _)
    exact iff_of_true ⟨rfl, rfl⟩ nofun
  | refused flaw =>
    by_cases ne : t = []
    · subst ne
      cases scan
      refine Agrees.of_refused black (strict.trans rfl) rfl (iff_of_false nofun fun seen => ?_)
      exact (seen.character rfl).1 rfl
    · obtain ⟨n, noted, scan'⟩ := CharacterLiteral.exists_lenient_token t
      refine Agrees.of_refused black (strict.trans scan) ((lenient ne).trans scan') ?_
      have notes := CharacterLiteral.lenient_notes_iff scan ne
      rw [scan'] at notes
      constructor
      · rintro rfl
        have longer := notes.mp ⟨n, rfl⟩
        refine ⟨fun _ => ⟨?_, fun place last => ?_⟩, nofun⟩
        · exact fun alone => ne (List.length_eq_zero_iff.mp (Nat.succ.inj alone).symm)
        · simp only [Flaw.place, List.length_cons] at place last
          exact longer (by omega) (by omega)
      · intro seen
        obtain ⟨_, same⟩ := notes.mpr fun first last =>
          (seen.character rfl).2 (by simp [Flaw.place, first]) (by simp [Flaw.place, first, last])
        exact (Scan.token.inj same).2.2

theorem agrees_string (black : '"' ∉ o.whitespace) (ih : ∀ n, o.Agrees (t.drop n)) :
    o.Agrees ('"' :: t) := by
  have strict : Scan.ofText .strict '"' t = StringLiteral.strict 1 t := Scan.ofText_double
  obtain ⟨n, noted, scan'⟩ := StringLiteral.exists_lenient_token 1 false none t
  have lenient : Scan.ofText .lenient '"' t = .token .string n noted :=
    Scan.ofText_double.trans scan'
  cases scan : StringLiteral.strict 1 t with
  | token kind m flaw =>
    obtain ⟨_, _, _, rfl, _, rfl⟩ := StringLiteral.strict_eq_token_iff.mp scan
    refine Agrees.of_token black (strict.trans scan) lenient ?_ (ih _)
    have same := StringLiteral.lenient_eq_token_iff scan
    rw [← StringLiteral.keepsStep_take scan, Nat.add_sub_cancel, scan'] at same
    simp [← same]
  | refused flaw =>
    refine Agrees.of_refused black (strict.trans scan) lenient ?_
    have notes := StringLiteral.lenient_notes_iff scan
    rw [scan'] at notes
    constructor
    · rintro rfl
      obtain ⟨step, last⟩ := notes.mp ⟨n, rfl⟩
      refine ⟨nofun, fun _ => ⟨step, fun cause place => last cause ?_⟩⟩
      simp only [Flaw.place, List.length_cons] at place
      omega
    · intro seen
      obtain ⟨step, last⟩ := seen.string rfl
      obtain ⟨_, same⟩ := notes.mpr ⟨step, fun cause place => last cause (by
        simp only [Flaw.place, List.length_cons]
        omega)⟩
      exact (Scan.token.inj same).2.2

theorem agrees_cons (number : c ∉ numeric) (black : c ∉ o.whitespace)
    (ih : ∀ n, o.Agrees (t.drop n)) : o.Agrees (c :: t) := by
  by_cases quote : c = '\''
  · subst quote
    exact agrees_character black ih
  by_cases double : c = '"'
  · subst double
    exact agrees_string black ih
  have same := Scan.ofText_lenient_eq_strict (t := t) number quote double
  cases scan : Scan.ofText .strict c t with
  | token kind n flaw =>
    obtain ⟨longest, rfl⟩ := Scan.longest_of_token scan
    refine Agrees.of_token black scan (same.trans scan) (iff_of_true ⟨rfl, rfl⟩ ?_) (ih n)
    rintro rfl
    cases longest.2.1.shape with
    | string double' => exact absurd double' double
  | refused flaw =>
    rcases Scan.quote_of_refused (ne_space_of_not_mem black) scan with rfl | rfl
    · exact absurd rfl quote
    · exact absurd rfl double

/-- Lenient reading follows strict reading, numbers aside, just if it keeps step with the escapes of
the strings. -/
theorem follows_iff (o : Options) (t : Text) :
    ((o.inMode .lenient).read t).numberless.Follows ((o.inMode .strict).read t).numberless ↔
      ((o.inMode .strict).read t).KeepsStep t := by
  show o.Agrees t
  induction length : t.length using Nat.strong_induction_on generalizing t with
  | _ m ih =>
    subst length
    cases t with
    | nil =>
      rw [Agrees, read_nil, read_nil]
      exact iff_of_true ⟨List.prefix_rfl, fun _ => rfl, rfl⟩ ⟨nofun, nofun⟩
    | cons c t =>
      have shorter (u : Text) (le : u.length ≤ t.length) : o.Agrees u :=
        ih _ (Nat.lt_succ_of_le le) u rfl
      -- the modes need not come to the end of a number together, so the stretch is passed at once
      by_cases number : c ∈ numeric
      · refine Agrees.of_numeric (shorter _ ?_)
        simpa [number] using (List.dropWhile_suffix (· ∈ numeric) (l := t)).length_le
      by_cases white : c ∈ o.whitespace
      · exact Agrees.of_white white (shorter t (Nat.le_refl _))
      · exact agrees_cons number white fun n => shorter _ (by simp)

end Options

/-! ## Lexing in both modes -/

/-- Where strict lexing answers with tokens, lenient lexing answers too. It keeps no diagnostics and
gives the same tokens, numbers aside, just if it keeps step with the escapes of the strings. -/
theorem diagnostics_lenient_of_strict_ok (o : Options) (filename source : Text)
    (tokens : List Token)
    (strict : ((Lexer.new (o.inMode .strict) filename source).lex).1 = .ok tokens) :
    ∃ others, ((Lexer.new (o.inMode .lenient) filename source).lex).1 = .ok others ∧
      (((Lexer.new (o.inMode .lenient) filename source).lex).2.diagnostics = [] ∧
          (others.filter fun t => !t.isNumeric) = (tokens.filter fun t => !t.isNumeric) ↔
        ∀ token ∈ tokens, token.kind = .string →
          StringLiteral.keepsStep .level token.lexeme.tail = true) := by
  obtain ⟨finished, rfl⟩ := (Lexer.lex_new_eq_ok_iff _ _ _).mp strict
  refine ⟨_, (Lexer.lex_new_eq_ok_iff _ _ _).mpr ⟨o.refusal_lenient source, rfl⟩, ?_⟩
  rw [Lexer.diagnostics_lex_new, List.map_eq_nil_iff]
  constructor
  · rintro ⟨clear, same⟩
    refine ((o.follows_iff source).mp ⟨?_, fun _ => same, ?_⟩).strings
    · exact ⟨[], (List.append_nil _).trans same.symm⟩
    · exact (congrArg List.head? clear).trans finished.symm
  · intro strings
    have follows := (o.follows_iff source).mpr ⟨strings, by simp [finished]⟩
    exact ⟨List.head?_eq_none_iff.mp (follows.first.trans finished), follows.whole finished⟩

/-- An escaped backslash may stand right behind an escape if what follows it makes an escape too. -/
theorem diagnostics_lenient_of_strict_ok_escapes :
    ((Lexer.new (Options.standard.inMode .lenient) [] "-.5 \"\\\"\\\\n\"".toList).lex).2.diagnostics =
      [] := by
  have strict : ((Lexer.new (Options.standard.inMode .strict) []
      "-.5 \"\\\"\\\\n\"".toList).lex).1 = .ok [⟨.operator, ['-'], 0⟩, ⟨.operator, ['.'], 1⟩,
        ⟨.integer, ['5'], 2⟩, ⟨.string, "\"\\\"\\\\n\"".toList, 4⟩] := by decide +kernel
  obtain ⟨_, _, same⟩ := diagnostics_lenient_of_strict_ok .standard [] _ _ strict
  exact (same.mpr (by decide +kernel)).1

/-- Otherwise the backslash behind it may be read with the closing quote. -/
theorem diagnostics_lenient_backslashes :
    ((Lexer.new (Options.standard.inMode .strict) [] "\"\\\\\\\\\"".toList).lex).1 =
      .ok [⟨.string, "\"\\\\\\\\\"".toList, 0⟩] ∧
    ((Lexer.new (Options.standard.inMode .lenient) [] "\"\\\\\\\\\"".toList).lex).2.diagnostics =
      [Fault.report "\"\\\\\\\\\"".toList [] ⟨.unterminated .string, 0, 6⟩] := by
  decide +kernel

/-- Where strict lexing answers with a fault, lenient lexing answers all the same. It gives the
tokens before the fault first, numbers aside, and notes just that fault first, exactly if it keeps
step with the escapes of the strings and gets to see the fault; the report of the fault is then the
first of its diagnostics. -/
theorem head?_diagnostics_lenient_of_strict_error (o : Options) (filename source : Text)
    (fault : Fault)
    (strict : ((Lexer.new (o.inMode .strict) filename source).lex).1 = .error fault) :
    ∃ others, ((Lexer.new (o.inMode .lenient) filename source).lex).1 = .ok others ∧
      (((lex (o.inMode .strict) source).tokens.filter fun t => !t.isNumeric) <+:
          (others.filter fun t => !t.isNumeric) ∧
          (lex (o.inMode .lenient) source).accepted.head? = some fault ↔
        (lex (o.inMode .strict) source).reading.KeepsStep source) ∧
      ((lex (o.inMode .strict) source).reading.KeepsStep source →
        ((Lexer.new (o.inMode .lenient) filename source).lex).2.diagnostics.head? =
          some (fault.report source filename)) := by
  have refused := (Lexer.lex_new_eq_error_iff _ _ _).mp strict
  have given : (lex (o.inMode .strict) source).tokens = ((o.inMode .strict).read source).tokens :=
    congrArg Reading.tokens (lex_reading _ _)
  have noted :
      (lex (o.inMode .lenient) source).accepted = ((o.inMode .lenient).read source).accepted :=
    congrArg Reading.accepted (lex_reading _ _)
  refine ⟨_, (Lexer.lex_new_eq_ok_iff _ _ _).mpr ⟨o.refusal_lenient source, rfl⟩, ?_, ?_⟩
  · rw [lex_reading, given, noted, ← o.follows_iff source, ← refused]
    constructor
    · rintro ⟨pre, first⟩
      exact ⟨pre, fun ended => absurd (refused.symm.trans ended) nofun, first⟩
    · rintro ⟨pre, -, first⟩
      exact ⟨pre, first⟩
  · intro step
    rw [lex_reading, ← o.follows_iff source] at step
    have first : ((o.inMode .lenient).read source).accepted.head? = some fault :=
      step.first.trans refused
    rw [Lexer.diagnostics_lex_new, List.head?_map, first, Option.map_some]

theorem head?_diagnostics_lenient_of_strict_error_character :
    ((Lexer.new (Options.standard.inMode .lenient) []
      "\"\\\"\\\\n\" 'ab'".toList).lex).2.diagnostics.head? =
      some (Fault.report "\"\\\"\\\\n\" 'ab'".toList [] ⟨.unterminated .character, 8, 10⟩) := by
  have strict : ((Lexer.new (Options.standard.inMode .strict) []
      "\"\\\"\\\\n\" 'ab'".toList).lex).1 = .error ⟨.unterminated .character, 8, 10⟩ := by
    decide +kernel
  obtain ⟨_, _, _, first⟩ := head?_diagnostics_lenient_of_strict_error .standard [] _ _ strict
  exact first ⟨by decide +kernel, by decide +kernel⟩

/-- Behind a `\n`, the quote of a `\"` closes the literal in lenient reading. -/
theorem diagnostics_lenient_escaped_quote :
    ((Lexer.new (Options.standard.inMode .strict) [] "\"\\n\\\"".toList).lex).1 =
      .error ⟨.unterminated .string, 0, 5⟩ ∧
    ((Lexer.new (Options.standard.inMode .lenient) [] "\"\\n\\\"".toList).lex).2.diagnostics =
      [] := by
  decide +kernel

/-- At the very end of the text, an empty literal is not seen to be one. -/
example :
    ((Lexer.new (Options.standard.inMode .strict) [] "''".toList).lex).1 =
      .error ⟨.emptyCharacter, 0, 1⟩ ∧
    ((Lexer.new (Options.standard.inMode .lenient) [] "''".toList).lex).2.diagnostics.head? =
      some (Fault.report "''".toList [] ⟨.unterminated .character, 0, 2⟩) := by
  decide +kernel

end Lexis
