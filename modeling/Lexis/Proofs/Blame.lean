import Lexis.Proofs.Agreement
import Lexis.Proofs.Lookahead
import Lexis.Proofs.Tiling
import Mathlib.Data.List.Forall2

/-!
# Diagnostics and the tokens they blame

In lenient reading a fault is noted together with the token that it is about, at most one for each.
So the diagnostics belong one by one, and in their order, to some of the literals. That their
offsets are in order as well does not follow from this alone. A literal that is not closed is
reported at the end of the text, but its last character is left to the next token, and this may be
the opening quote of another such literal.

The offsets are in order since a literal is never blamed at its first character, and is blamed at
most one character behind its end, which is where the next token would be blamed at the earliest.

Results:
1. `CharacterLiteral.near_of_lenient`, `StringLiteral.near_of_lenient`: where the flaw of a literal
   lies. `Scan.near_of_lenient`: this for whatever rule.
2. `Options.blames_read`: the faults of a reading and the tokens they blame.
3. `pairwise_offset_of_blames`: the faults are in order where the tokens are.
4. `diagnostics_lenient_in_order`: all of this, for lexing.
-/

namespace Lexis

/-! ## Where the flaw of a token lies -/

namespace Flaw

variable {depth further size : Nat} {flaw : Flaw} {f g : Option Flaw}

/-- The flaw lies behind the first character and up to the depth, if there is one at all. -/
def UpTo (depth : Nat) (f : Option Flaw) : Prop :=
  ∀ flaw ∈ f, 0 < flaw.depth ∧ flaw.depth ≤ depth

/-- The flaw of a token that has `further` characters behind its first, in front of a text of `size`
characters. It lies behind the first character, and up to the end of the token, or at the end of the
text if just one character stands between. -/
structure Near (size further : Nat) (flaw : Flaw) : Prop where
  behind : 0 < flaw.depth
  near : flaw.depth ≤ further + 2
  within : flaw.depth ≤ further + 1 ∨ flaw.depth = size

theorem upTo_none (depth : Nat) : UpTo depth none := nofun

theorem upTo_some (behind : 0 < flaw.depth) (le : flaw.depth ≤ depth) : UpTo depth (some flaw) := by
  rintro _ ⟨⟩
  exact ⟨behind, le⟩

theorem UpTo.mono {deeper : Nat} (h : UpTo depth f) (le : depth ≤ deeper) : UpTo deeper f :=
  fun flaw mem => ⟨(h flaw mem).1, (h flaw mem).2.trans le⟩

theorem UpTo.or (hf : UpTo depth f) (hg : UpTo depth g) : UpTo depth (f.or g) := by
  cases f with
  | none => exact hg
  | some flaw => exact hf

theorem UpTo.near (h : UpTo (further + 1) (some flaw)) : flaw.Near size further :=
  have ⟨behind, le⟩ := h flaw rfl
  ⟨behind, le.trans (Nat.le_succ _), .inl le⟩

end Flaw

variable {c : Char} {t : Text} {kind : Kind} {n : Nat} {flaw : Flaw} {f g : Option Flaw}

namespace CharacterLiteral

variable {depth : Nat}

theorem upTo_of_lenientClose (pos : 0 < depth) (noted : Flaw.UpTo depth f)
    (h : lenientClose depth f t = .token kind n g) : Flaw.UpTo (n + 1) g := by
  unfold lenientClose at h
  split at h
  · cases h
    refine (noted.mono (Nat.le_succ _)).or ?_
    split
    · exact Flaw.upTo_some Nat.one_pos (Nat.le_add_left _ _)
    · exact Flaw.upTo_none _
  · cases h
    rw [Nat.sub_add_cancel pos]
    exact noted.or (Flaw.upTo_some pos (Nat.le_refl _))

theorem upTo_of_lenientBody (pos : 0 < depth) (noted : Flaw.UpTo depth f)
    (h : lenientBody depth f t = .token kind n g) : Flaw.UpTo (n + 1) g := by
  obtain ⟨_, _, _, _, same⟩ := exists_lenientBody_eq depth f t
  rw [same] at h
  exact upTo_of_lenientClose (Nat.add_pos_left pos _) (noted.mono (Nat.le_add_right _ _)) h

theorem upTo_controlFlaw (c : Char) : Flaw.UpTo 1 (some (controlFlaw c)) := by
  unfold controlFlaw
  split <;> exact Flaw.upTo_some Nat.one_pos (Nat.le_refl _)

/-- The flaw of a character literal. Only that of a quote right before the last character lies
behind its token. -/
theorem near_of_lenient (h : lenient t = .token kind n (some flaw)) :
    flaw.Near (t.length + 1) n := by
  match t with
  | [] =>
    cases h
    exact ⟨Nat.one_pos, Nat.le_succ 1, .inr rfl⟩
  | [c] =>
    cases h
    exact ⟨Nat.two_pos, Nat.le_refl 2, .inr rfl⟩
  | c :: d :: t =>
    rw [lenient] at h
    split at h
    · split at h
      · exact (upTo_of_lenientClose (by decide) (Flaw.upTo_none _) h).near
      · cases h
        exact (Flaw.upTo_some Nat.two_pos (Nat.le_refl _)).near
    · split at h
      · have noted := (upTo_controlFlaw c).mono (by decide : 1 ≤ 2)
        exact (upTo_of_lenientBody (by decide) noted h).near
      · exact (upTo_of_lenientBody (by decide) (Flaw.upTo_none _) h).near

end CharacterLiteral

namespace StringLiteral

variable {depth : Nat} {escaped : Bool}

theorem upTo_plainFlaw? (pos : 0 < depth) (c next : Char) :
    Flaw.UpTo (depth + 1) (plainFlaw? depth c next) := by
  unfold plainFlaw?
  split
  · exact Flaw.upTo_some pos (Nat.le_succ _)
  split
  · exact Flaw.upTo_some (Nat.succ_pos _) (Nat.le_refl _)
  · exact Flaw.upTo_none _

/-- The flaw of a string literal. It lies behind the token if the literal runs up to the last
character of the text, which is left to the next token. -/
theorem near_of_lenient (pos : 0 < depth) (noted : Flaw.UpTo depth f)
    (h : lenient depth escaped f t = .token kind n (some flaw)) :
    flaw.Near (depth + t.length) n := by
  fun_induction lenient depth escaped f t with
  | case1 depth escaped f =>
    obtain ⟨-, rfl, flawed⟩ := Scan.token.inj h
    have upTo : Flaw.UpTo depth (f.or (some ⟨.unterminated .string, depth⟩)) :=
      noted.or (Flaw.upTo_some pos (Nat.le_refl _))
    rw [flawed, ← Nat.sub_add_cancel pos] at upTo
    exact upTo.near
  | case2 | case4 =>
    cases h
    exact (noted.mono (Nat.le_succ _)).near
  | case3 depth escaped f c quote =>
    obtain ⟨-, further, flawed⟩ := Scan.token.inj h
    have le : depth ≤ n + 1 := by
      rw [← further]
      split <;> omega
    cases f with
    | some before =>
      cases flawed
      exact (noted.mono le).near
    | none =>
      cases flawed
      exact ⟨Nat.succ_pos _, Nat.succ_le_succ le, .inr rfl⟩
  | case5 depth escaped f c d t quote backslash letter ih =>
    have near := ih (Nat.add_pos_left pos 2) (noted.mono (Nat.le_add_right _ 2)) h
    rwa [Nat.add_right_comm] at near
  | case6 depth escaped f c d t quote backslash letter =>
    obtain ⟨-, rfl, flawed⟩ := Scan.token.inj h
    have upTo : Flaw.UpTo (depth + 1) (f.or (some ⟨.invalidEscape d, depth + 1⟩)) :=
      (noted.mono (Nat.le_succ _)).or (Flaw.upTo_some (Nat.succ_pos _) (Nat.le_refl _))
    rw [flawed] at upTo
    exact upTo.near
  | case7 depth escaped f c d t quote asIs ih =>
    have noted := (noted.mono (Nat.le_succ _)).or (upTo_plainFlaw? pos c d)
    have near := ih (Nat.succ_pos _) noted h
    rwa [Nat.add_right_comm] at near

end StringLiteral

/-- In lenient reading, only literals have a flaw. -/
theorem Scan.near_of_lenient (h : ofText .lenient c t = .token kind n (some flaw)) :
    (kind = .character ∨ kind = .string) ∧ flaw.Near (t.length + 1) n := by
  unfold ofText Numeral.scan at h
  split at h
  · cases h
  split at h
  · split at h <;> cases h
  split at h
  · have near := CharacterLiteral.near_of_lenient h
    obtain ⟨_, _, scan⟩ := CharacterLiteral.exists_lenient_token t
    cases scan.symm.trans h
    exact ⟨.inl rfl, near⟩
  split at h
  · have near := StringLiteral.near_of_lenient Nat.one_pos (Flaw.upTo_none 1) h
    obtain ⟨_, _, scan⟩ := StringLiteral.exists_lenient_token 1 false none t
    cases scan.symm.trans h
    rw [Nat.add_comm] at near
    exact ⟨.inr rfl, near⟩
  split at h <;> cases h

/-! ## Faults and the tokens they blame -/

/-- The fault is about the token, in a text that ends at `stop`.

* `literal`, `start`: the token is a literal, and the fault is said to begin with it.
* `behind`, `near`: the fault lies behind the token's first character, at most one character behind
  its last one.
* `within`: it lies behind the token's end only if the text ends there. -/
structure Fault.Blames (stop : Nat) (fault : Fault) (token : Token) : Prop where
  literal : token.kind = .character ∨ token.kind = .string
  start : token.start = fault.start
  behind : fault.start < fault.offset
  near : fault.offset ≤ token.stop + 1
  within : fault.offset ≤ token.stop ∨ fault.offset = stop

variable {stop : Nat} {fault : Fault} {token : Token} {faults : List Fault} {tokens : List Token}

/-- Moving the text along moves both along. -/
theorem Fault.Blames.shift (m : Nat) (h : fault.Blames stop token) :
    (fault.shift m).Blames (m + stop) (token.shift m) where
  literal := h.literal
  start := congrArg ((m : Int) + ·) h.start
  behind := Nat.add_lt_add_left h.behind m
  near := by
    have near := h.near
    simp only [Token.stop, Token.shift, Fault.shift] at near ⊢
    omega
  within := by
    have within := h.within
    simp only [Token.stop, Token.shift, Fault.shift] at within ⊢
    omega

/-- The flaw of a token in front of a text is about it. -/
theorem Fault.blames_of_near (literal : kind = .character ∨ kind = .string) (le : n ≤ t.length)
    (h : flaw.Near (t.length + 1) n) :
    (flaw.place 0).Blames (t.length + 1) ⟨kind, (c :: t).take (n + 1), 0⟩ := by
  have behind := h.behind
  have near := h.near
  have within := h.within
  have length : ((c :: t).take (n + 1)).length = n + 1 := by simp [le]
  refine ⟨literal, rfl, ?_, ?_, ?_⟩ <;> simp only [Flaw.place, Token.stop, length] <;> omega

theorem sublistForall₂_map {α β γ δ : Type} {R : α → β → Prop} {S : γ → δ → Prop} {f : α → γ}
    {g : β → δ} (each : ∀ a b, R a b → S (f a) (g b)) {l : List α} {m : List β}
    (h : List.SublistForall₂ R l m) : List.SublistForall₂ S (l.map f) (m.map g) := by
  induction h with
  | nil => exact .nil
  | cons related _ ih => exact .cons (each _ _ related) ih
  | cons_right _ ih => exact .cons_right ih

/-- In lenient reading, the faults are about some of the tokens, one by one and in their order. -/
theorem Options.blames_read (o : Options) (t : Text) :
    List.SublistForall₂ (Fault.Blames t.length) ((o.inMode .lenient).read t).accepted
      ((o.inMode .lenient).read t).tokens := by
  induction t using (o.inMode .lenient).read_induction with
  | nil =>
    rw [read_nil]
    exact .nil
  | white c t white ih =>
    rw [read_white white, List.length_cons, Nat.add_comm]
    exact sublistForall₂_map (fun _ _ blames => blames.shift 1) ih
  | token c t kind further flaw black scan le ih =>
    have rest := sublistForall₂_map (fun _ _ blames => blames.shift (further + 1)) ih
    have length : further + 1 + (t.drop further).length = (c :: t).length := by
      rw [List.length_drop, List.length_cons]
      omega
    rw [length] at rest
    rw [read_token black scan]
    cases flaw with
    | none => exact .cons_right rest
    | some flaw =>
      obtain ⟨literal, near⟩ := Scan.near_of_lenient scan
      exact .cons (Fault.blames_of_near literal le near) rest
  | refused c t flaw black scan =>
    exact absurd scan (Scan.lenient_ne_refused (ne_space_of_not_mem black) t flaw)

theorem exists_of_blames (h : List.SublistForall₂ (Fault.Blames stop) faults tokens)
    (mem : fault ∈ faults) : ∃ token ∈ tokens, fault.Blames stop token := by
  induction h with
  | nil => exact absurd mem List.not_mem_nil
  | cons blames _ ih =>
    rcases List.mem_cons.mp mem with rfl | mem
    · exact ⟨_, List.mem_cons_self, blames⟩
    · obtain ⟨token, mem, blames⟩ := ih mem
      exact ⟨token, List.mem_cons_of_mem _ mem, blames⟩
  | cons_right _ ih =>
    obtain ⟨token, mem, blames⟩ := ih mem
    exact ⟨token, List.mem_cons_of_mem _ mem, blames⟩

/-- The faults are in order where the tokens stand one behind the other. -/
theorem pairwise_offset_of_blames (h : List.SublistForall₂ (Fault.Blames stop) faults tokens)
    (apart : tokens.Pairwise fun a b => a.stop ≤ b.start) :
    faults.Pairwise fun a b => a.offset ≤ b.offset := by
  induction h with
  | nil => exact .nil
  | @cons fault token faults tokens blames rest ih =>
    obtain ⟨first, apart⟩ := List.pairwise_cons.mp apart
    refine .cons (fun other mem => ?_) (ih apart)
    obtain ⟨next, mem, blames'⟩ := exists_of_blames rest mem
    have near := blames.near
    have apart := first next mem
    have start := blames'.start
    have behind := blames'.behind
    omega
  | cons_right rest ih => exact ih apart.of_cons

/-! ## Lexing -/

/-- The report is about the token of the source: it is a literal, the place reported lies behind its
first character and not behind its end, unless the source ends there, and if the literal is not
closed, it is said to be opened where the token begins. -/
structure Report.Blames (source : Text) (report : Report) (token : Token) : Prop where
  literal : token.kind = .character ∨ token.kind = .string
  behind : token.start < report.offset
  within : report.offset ≤ token.stop ∨ report.offset = source.length
  opened : ∀ literal opened, report.complaint = .unterminated literal opened →
    opened = token.start

theorem Fault.Blames.report (source filename : Text) (h : fault.Blames source.length token) :
    (fault.report source filename).Blames source token where
  literal := h.literal
  behind := by
    rw [h.start]
    exact Int.ofNat_lt.mpr h.behind
  within := h.within.imp_right (congrArg Nat.cast)
  opened literal opened complaint := (opened_of_complaint complaint).trans h.start.symm

/-- After lenient lexing the diagnostics are in the order of their offsets, and are about some of
the literals, one by one and in their order. -/
theorem diagnostics_lenient_in_order (o : Options) (filename source : Text) :
    ∃ tokens blamed, ((Lexer.new (o.inMode .lenient) filename source).lex).1 = .ok tokens ∧
      ((Lexer.new (o.inMode .lenient) filename source).lex).2.diagnostics.Pairwise
        (fun a b => a.offset ≤ b.offset) ∧
      blamed.Sublist tokens ∧
      List.Forall₂ (Report.Blames source)
        ((Lexer.new (o.inMode .lenient) filename source).lex).2.diagnostics blamed := by
  have finished := o.refusal_lenient source
  have tiling := (o.inMode .lenient).tiling_read source finished 0
  rw [Reading.shift_zero] at tiling
  have blames := o.blames_read source
  have reports := sublistForall₂_map (f := Fault.report source filename) (g := id)
    (fun _ _ blames => blames.report source filename) blames
  rw [List.map_id, List.sublistForall₂_iff] at reports
  obtain ⟨blamed, each, sub⟩ := reports
  refine ⟨_, blamed, (Lexer.lex_new_eq_ok_iff _ _ _).mpr ⟨finished, rfl⟩, ?_, sub, ?_⟩
  · rw [Lexer.diagnostics_lex_new]
    refine (pairwise_offset_of_blames blames tiling.pairwise).map _ ?_
    exact fun _ _ => Int.ofNat_le.mpr
  · rwa [Lexer.diagnostics_lex_new]

/-- Two literals are not closed, and both are reported at the end of the text. The second is the
last character, which the first leaves behind. -/
example : ((Lexer.new (Options.standard.inMode .lenient) [] "'\"".toList).lex).1 =
      .ok [⟨.character, ['\''], 0⟩, ⟨.string, ['"'], 1⟩] ∧
    ((Lexer.new (Options.standard.inMode .lenient) [] "'\"".toList).lex).2.accepted =
      [⟨.unterminated .character, 0, 2⟩, ⟨.unterminated .string, 1, 2⟩] := by
  decide +kernel

end Lexis
