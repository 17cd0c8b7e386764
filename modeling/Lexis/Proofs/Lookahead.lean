import Lexis.Proofs.LiteralAgreement

/-!
# How far ahead a token is read

A token is settled by its own characters and the two behind it. Both matter: a point belongs to a
number if a digit stands behind it, and lenient reading takes a character into a literal only if
another one follows. So a rule gives the same token on two texts that are alike up to two characters
behind it, be they what they may from there on, and where one of the texts ends before that, the
other ends there too.

Results:
1. `Numeral.scan_of_take`, `CharacterLiteral.scan_of_take`, `StringLiteral.scan_of_take`: the
   numbers and the literals.
2. `Scan.ofText_of_take`: whatever the rule, the token is the same.
-/

namespace Lexis

open Alphabet

/-! ## Texts that are alike in front -/

section Alike

variable {c : Char} {t u p : Text} {m n : Nat}

theorem take_of_le (same : u.take m = t.take m) (le : n ≤ m) : u.take n = t.take n := by
  have both := congrArg (List.take n) same
  rwa [List.take_take, List.take_take, Nat.min_eq_left le] at both

theorem eq_nil_of_take (same : u.take (m + 1) = ([] : Text).take (m + 1)) : u = [] := by
  simpa using same

theorem exists_cons_of_take (same : u.take (m + 1) = (c :: t).take (m + 1)) :
    ∃ v, u = c :: v ∧ v.take m = t.take m := by
  cases u with
  | nil => cases same
  | cons d v =>
    obtain ⟨rfl, behind⟩ := List.cons.inj same
    exact ⟨v, rfl, behind⟩

theorem exists_append_of_take (same : u.take (p.length + m) = (p ++ t).take (p.length + m)) :
    ∃ v, u = p ++ v ∧ v.take m = t.take m := by
  induction p generalizing u with
  | nil => exact ⟨u, rfl, by simpa using same⟩
  | cons c p ih =>
    rw [List.length_cons, Nat.add_right_comm] at same
    obtain ⟨v, rfl, behind⟩ := exists_cons_of_take same
    obtain ⟨w, rfl, alike⟩ := ih behind
    exact ⟨w, rfl, alike⟩

theorem prefix_of_take (same : u.take m = t.take m) (pre : p <+: t) (le : p.length ≤ m) :
    p <+: u := by
  obtain ⟨r, rfl⟩ := pre
  have front := take_of_le same le
  rw [List.take_left] at front
  exact front ▸ List.take_prefix p.length u

theorem head?_of_take (same : u.take (m + 1) = t.take (m + 1)) : u.head? = t.head? := by
  have front := congrArg List.head? same
  rwa [List.head?_take, List.head?_take, if_neg (Nat.succ_ne_zero m),
    if_neg (Nat.succ_ne_zero m)] at front

theorem takeWhile_of_take {q : Char → Bool} (le : (t.takeWhile q).length ≤ m)
    (same : u.take (m + 1) = t.take (m + 1)) : u.takeWhile q = t.takeWhile q := by
  induction t generalizing u m with
  | nil => rw [eq_nil_of_take same]
  | cons c t ih =>
    obtain ⟨v, rfl, behind⟩ := exists_cons_of_take same
    by_cases h : q c = true
    · rw [List.takeWhile_cons_of_pos h] at le ⊢
      obtain ⟨m, rfl⟩ := Nat.exists_eq_add_of_lt (Nat.lt_of_lt_of_le (Nat.succ_pos _) le)
      rw [Nat.zero_add] at le behind
      rw [List.takeWhile_cons_of_pos h, ih (Nat.le_of_succ_le_succ le) behind]
    · rw [List.takeWhile_cons_of_neg h, List.takeWhile_cons_of_neg h]

end Alike

variable {mode : Mode} {c : Char} {t u : Text} {kind : Kind} {n : Nat} {flaw : Option Flaw}

/-! ## Numbers -/

namespace Numeral

theorem fraction?_of_take (same : u.take ((fraction? mode t).getD 0 + 2) =
    t.take ((fraction? mode t).getD 0 + 2)) : fraction? mode u = fraction? mode t := by
  cases t with
  | nil => rw [eq_nil_of_take same]
  | cons x t =>
    obtain ⟨v, rfl, behind⟩ := exists_cons_of_take same
    cases t with
    | nil => rw [eq_nil_of_take behind]
    | cons d t =>
      obtain ⟨w, rfl, further⟩ := exists_cons_of_take behind
      by_cases point : x = '.'
      · subst point
        by_cases bare : mode = .strict ∧ d ∉ digits
        · simp only [fraction?, if_pos bare]
        · -- the run of digits is part of the token, so it is the same
          simp only [fraction?, if_neg bare, Option.getD_some] at behind ⊢
          rw [digitRun, digitRun, takeWhile_of_take (t := d :: t) (Nat.le_refl _)
            (take_of_le behind (by rw [digitRun]; omega))]
      · simp [fraction?, point]

/-- The rest of a number is settled two characters behind it. -/
theorem tail_of_take (same : u.take ((tail mode t).2 + 2) = t.take ((tail mode t).2 + 2)) :
    tail mode u = tail mode t := by
  have length : (tail mode t).2 =
      digitRun t + (fraction? mode (t.drop (digitRun t))).getD 0 := by
    unfold tail
    split <;> simp [*]
  rw [length] at same
  have run : digitRun u = digitRun t := by
    rw [digitRun, digitRun, takeWhile_of_take (Nat.le_refl _) (take_of_le same ?_)]
    rw [digitRun]
    omega
  have behind := congrArg (List.drop (digitRun t)) same
  rw [List.drop_take, List.drop_take, Nat.add_assoc, Nat.add_sub_cancel_left] at behind
  rw [tail, tail, run, fraction?_of_take behind]

/-- A number is settled two characters behind it, be it a zero by itself or not. -/
theorem scan_of_take (h : scan mode c t = .token kind n flaw)
    (same : u.take (n + 2) = t.take (n + 2)) : scan mode c u = .token kind n flaw := by
  unfold scan at h ⊢
  rw [head?_of_take same]
  split at h
  · next alone => rw [if_pos alone, h]
  · next alone =>
    cases h
    rw [if_neg alone, tail_of_take same]

end Numeral

/-! ## Literals -/

namespace CharacterLiteral

variable {depth : Nat}

theorem lenientClose_of_take (same : u.take 1 = t.take 1) :
    lenientClose depth flaw u = lenientClose depth flaw t := by
  cases t with
  | nil => rw [eq_nil_of_take same]
  | cons c t =>
    obtain ⟨v, rfl, _⟩ := exists_cons_of_take same
    by_cases quote : c = '\''
    · subst quote
      rfl
    · simp [lenientClose, quote]

theorem lenientBody_of_take (same : u.take 2 = t.take 2) :
    lenientBody depth flaw u = lenientBody depth flaw t := by
  cases t with
  | nil => rw [eq_nil_of_take same]
  | cons c t =>
    obtain ⟨v, rfl, behind⟩ := exists_cons_of_take same
    cases t with
    | nil => rw [eq_nil_of_take behind]
    | cons d t =>
      obtain ⟨w, rfl, _⟩ := exists_cons_of_take behind
      have next : lenientClose (depth + 1) flaw (d :: w) = lenientClose (depth + 1) flaw (d :: t) :=
        lenientClose_of_take behind
      have here : lenientClose depth flaw (c :: d :: w) = lenientClose depth flaw (c :: d :: t) :=
        lenientClose_of_take (take_of_le same (Nat.le_succ 1))
      rw [lenientBody, lenientBody, next, here]

theorem le_of_lenientClose {f : Option Flaw} (h : lenientClose depth f t = .token kind n flaw) :
    depth ≤ n + 1 := by
  unfold lenientClose at h
  split at h <;> cases h <;> omega

theorem le_of_lenientBody {f : Option Flaw} (h : lenientBody depth f t = .token kind n flaw) :
    depth ≤ n + 1 := by
  obtain ⟨_, _, _, _, same⟩ := exists_lenientBody_eq depth f t
  rw [same] at h
  exact (Nat.le_add_right depth _).trans (le_of_lenientClose h)

/-- A literal in lenient reading is settled two characters behind it. -/
theorem lenient_of_take (h : lenient t = .token kind n flaw)
    (same : u.take (n + 2) = t.take (n + 2)) : lenient u = .token kind n flaw := by
  match t with
  | [] =>
    rw [eq_nil_of_take same, h]
  | [c] =>
    obtain ⟨v, rfl, behind⟩ := exists_cons_of_take same
    rw [eq_nil_of_take behind, h]
  | c :: d :: t =>
    obtain ⟨v, rfl, behind⟩ := exists_cons_of_take same
    obtain ⟨w, rfl, further⟩ := exists_cons_of_take behind
    rw [lenient] at h ⊢
    split at h
    · split at h
      · next backslash letter =>
        have le := le_of_lenientClose h
        rw [if_pos backslash, if_pos letter, ← h]
        exact lenientClose_of_take (take_of_le further (by omega))
      · next backslash letter => rw [if_pos backslash, if_neg letter, h]
    · split at h
      · next backslash control =>
        have le := le_of_lenientBody h
        rw [if_neg backslash, if_pos control, ← h]
        exact lenientBody_of_take (take_of_le behind (by omega))
      · next backslash control =>
        rw [if_neg backslash, if_neg control, ← h]
        exact lenientBody_of_take (take_of_le same (by omega))

/-- A literal is settled two characters behind it. In strict reading it is settled at its end. -/
theorem scan_of_take (h : scan mode t = .token kind n flaw)
    (same : u.take (n + 2) = t.take (n + 2)) : scan mode u = .token kind n flaw := by
  cases mode with
  | strict =>
    obtain ⟨item, standing, pre, rfl, rfl, rfl⟩ := strict_eq_token_iff.mp h
    exact strict_eq_token_iff.mpr
      ⟨item, standing, prefix_of_take same pre (by simp), rfl, rfl, rfl⟩
  | lenient => exact lenient_of_take h same

end CharacterLiteral

namespace StringLiteral

variable {depth : Nat} {escaped : Bool} {f : Option Flaw}

theorem le_of_lenient (h : lenient depth escaped f t = .token kind n flaw) : depth ≤ n + 1 := by
  fun_induction lenient depth escaped f t with
  | case1 =>
    cases h
    exact Nat.le_succ_of_pred_le (Nat.le_refl _)
  | case3 =>
    cases h
    split <;> omega
  | case2 | case4 | case6 =>
    cases h
    exact Nat.le_succ _
  | case5 _ _ _ _ _ _ _ _ _ ih | case7 _ _ _ _ _ _ _ _ ih =>
    have := ih h
    omega

/-- A literal in lenient reading is settled two characters behind it. -/
theorem lenient_of_take {m : Nat} (h : lenient depth escaped f t = .token kind n flaw)
    (le : n + 3 ≤ depth + m) (same : u.take m = t.take m) :
    lenient depth escaped f u = .token kind n flaw := by
  have two : ∃ k, m = k + 2 := Nat.exists_eq_add_of_le' (by have := le_of_lenient h; omega)
  obtain ⟨k, rfl⟩ := two
  fun_induction lenient depth escaped f t generalizing u k with
  | case1 =>
    rw [eq_nil_of_take same, lenient]
    exact h
  | case2 =>
    obtain ⟨v, rfl, behind⟩ := exists_cons_of_take same
    rw [lenient_quote]
    exact h
  | case3 depth escaped f c quote =>
    obtain ⟨v, rfl, behind⟩ := exists_cons_of_take same
    rw [eq_nil_of_take behind, lenient, if_neg quote]
    exact h
  | case4 =>
    obtain ⟨v, rfl, behind⟩ := exists_cons_of_take same
    rw [lenient_quote]
    exact h
  | case5 depth escaped f c d t quote notEscaped letter ih =>
    obtain ⟨v, rfl, behind⟩ := exists_cons_of_take same
    obtain ⟨w, rfl, further⟩ := exists_cons_of_take behind
    have rest := le_of_lenient h
    obtain ⟨k, rfl⟩ : ∃ j, k = j + 2 := Nat.exists_eq_add_of_le' (by omega)
    rw [lenient, if_neg quote, if_pos notEscaped, if_pos letter]
    exact ih h k (by omega) further
  | case6 depth escaped f c d t quote notEscaped letter =>
    obtain ⟨v, rfl, behind⟩ := exists_cons_of_take same
    obtain ⟨w, rfl, _⟩ := exists_cons_of_take behind
    rw [lenient, if_neg quote, if_pos notEscaped, if_neg letter]
    exact h
  | case7 depth escaped f c d t quote asIs ih =>
    obtain ⟨v, rfl, behind⟩ := exists_cons_of_take same
    obtain ⟨w, rfl, _⟩ := exists_cons_of_take behind
    have rest := le_of_lenient h
    obtain ⟨k, rfl⟩ : ∃ j, k = j + 1 := Nat.exists_eq_add_of_le' (by omega)
    rw [lenient, if_neg quote, if_neg asIs]
    exact ih h k (by omega) behind

/-- A literal is settled two characters behind it. In strict reading it is settled at its end. -/
theorem scan_of_take (h : scan mode t = .token kind n flaw)
    (same : u.take (n + 2) = t.take (n + 2)) : scan mode u = .token kind n flaw := by
  cases mode with
  | strict =>
    obtain ⟨items, standing, pre, rfl, rfl, rfl⟩ := strict_eq_token_iff.mp h
    refine strict_eq_token_iff.mpr ⟨items, standing, prefix_of_take same pre ?_, rfl, rfl, rfl⟩
    rw [List.length_append, List.length_singleton]
    omega
  | lenient => exact lenient_of_take h (by omega) same

end StringLiteral

namespace Scan

/-- Whatever the rule, a token is settled two characters behind it. -/
theorem ofText_of_take (h : ofText mode c t = .token kind n flaw)
    (same : u.take (n + 2) = t.take (n + 2)) : ofText mode c u = .token kind n flaw := by
  have head : u.head? = t.head? := head?_of_take same
  have number : startsNumber mode c u = startsNumber mode c t := by
    rw [startsNumber, startsNumber, head]
  have nil : u ≠ [] ↔ t ≠ [] := by
    rw [ne_eq, ne_eq, ← List.head?_eq_none_iff, ← List.head?_eq_none_iff, head]
  unfold ofText at h ⊢
  rw [number]
  simp only [nil]
  split at h
  · next ident =>
    cases h
    rw [if_pos ident, identifierTail, takeWhile_of_take (Nat.le_refl _)
      (take_of_le same (Nat.le_succ _))]
    rfl
  next ident =>
  rw [if_neg ident]
  split at h
  · next starts =>
    rw [if_pos starts]
    exact Numeral.scan_of_take h same
  next starts =>
  rw [if_neg starts]
  split at h
  · next quote =>
    rw [if_pos quote]
    exact CharacterLiteral.scan_of_take h same
  next quote =>
  rw [if_neg quote]
  split at h
  · next double =>
    rw [if_pos double]
    exact StringLiteral.scan_of_take h same
  next double =>
  rw [if_neg double]
  split at h
  · cases h
  · next space =>
    rw [if_neg space, operatorTail, head]
    exact h

end Scan

end Lexis
