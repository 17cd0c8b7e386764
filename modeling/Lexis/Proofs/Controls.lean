import Lexis.Text.Terminal
import Mathlib.Data.List.Infix
import Mathlib.Data.List.TakeWhile

/-!
# What is removed with control sequences

The removal of control sequences changes a text if and only if one of its pieces is a control
sequence. A sequence holds no line feed, so each line of a text loses its own sequences and a text
keeps its lines.

Results:
1. `Text.afterControl?_eq_some_iff`: what is left behind a control sequence.
2. `Text.withoutControls_eq_self_iff`: the texts that are left alone.
3. `Text.withoutControls_joinLines`, `Text.holdsControl_joinLines`: the lines of a text lose their
   sequences one by one.
-/

namespace Lexis.Text

/-! ## The form of a control sequence -/

/-- `IsControl s`: the text is a control sequence and nothing else. -/
def IsControl (s : Text) : Prop :=
  ∃ parameters intermediates final,
    s = escapeChar :: '[' :: (parameters ++ (intermediates ++ [final])) ∧
    (∀ c ∈ parameters, isParameter c = true) ∧ (∀ c ∈ intermediates, isIntermediate c = true) ∧
    isFinal final = true

/-- Some piece of the text is a control sequence. -/
def HoldsControl (t : Text) : Prop := ∃ s, IsControl s ∧ s <:+: t

theorem isParameter_iff {c : Char} : isParameter c = true ↔ 0x30 ≤ c.toNat ∧ c.toNat ≤ 0x3f := by
  simp only [isParameter, Bool.and_eq_true, decide_eq_true_eq, Char.le_def, UInt32.le_iff_toNat_le]
  rfl

theorem isIntermediate_iff {c : Char} :
    isIntermediate c = true ↔ 0x20 ≤ c.toNat ∧ c.toNat ≤ 0x2f := by
  simp only [isIntermediate, Bool.and_eq_true, decide_eq_true_eq, Char.le_def,
    UInt32.le_iff_toNat_le]
  rfl

theorem isFinal_iff {c : Char} : isFinal c = true ↔ 0x40 ≤ c.toNat ∧ c.toNat ≤ 0x7e := by
  simp only [isFinal, Bool.and_eq_true, decide_eq_true_eq, Char.le_def, UInt32.le_iff_toNat_le]
  rfl

/-- What is dropped from a text in front is a whole stretch of it. -/
theorem dropWhile_stretch {p : Char → Bool} {a b : Text} (stretch : ∀ c ∈ a, p c = true)
    (ends : ∀ c ∈ b.head?, p c = false) : (a ++ b).dropWhile p = b := by
  rw [List.dropWhile_append_of_pos stretch]
  cases b with
  | nil => rfl
  | cons c b => exact List.dropWhile_cons_of_neg (by simp [ends c rfl])

/-- What is left behind a control sequence is what stands there. -/
theorem afterControl?_eq_some_iff {t rest : Text} :
    afterControl? t = some rest ↔ ∃ s, IsControl (escapeChar :: s) ∧ t = s ++ rest := by
  constructor
  · intro h
    unfold afterControl? at h
    split at h
    · next body =>
      split at h
      · next c rest' behind =>
        split at h
        · next final =>
          cases h
          refine ⟨'[' :: (body.takeWhile isParameter ++
            ((body.dropWhile isParameter).takeWhile isIntermediate ++ [c])),
            ⟨_, _, c, rfl, ?_, ?_, final⟩, ?_⟩
          · exact fun d mem => List.mem_takeWhile_imp mem
          · exact fun d mem => List.mem_takeWhile_imp mem
          · have inner := List.takeWhile_append_dropWhile (p := isIntermediate)
              (l := body.dropWhile isParameter)
            have outer := List.takeWhile_append_dropWhile (p := isParameter) (l := body)
            rw [behind] at inner
            rw [← inner] at outer
            simpa using outer.symm
        · cases h
      · cases h
    · cases h
  · rintro ⟨s, ⟨parameters, intermediates, final, form, isParameters, isIntermediates, isFinal'⟩,
      rfl⟩
    cases form
    have between : ∀ c ∈ (intermediates ++ (final :: rest)).head?, isParameter c = false := by
      intro c head
      rw [Bool.eq_false_iff, ne_eq, isParameter_iff]
      cases intermediates with
      | nil =>
        cases head
        have := isFinal_iff.mp isFinal'
        omega
      | cons d intermediates =>
        cases head
        have := isIntermediate_iff.mp (isIntermediates _ List.mem_cons_self)
        omega
    have last : ∀ c ∈ (final :: rest).head?, isIntermediate c = false := by
      rintro c head
      cases head
      have := isFinal_iff.mp isFinal'
      rw [Bool.eq_false_iff, ne_eq, isIntermediate_iff]
      omega
    have text : '[' :: (parameters ++ (intermediates ++ [final])) ++ rest =
        '[' :: (parameters ++ (intermediates ++ (final :: rest))) := by simp
    rw [text, afterControl?, dropWhile_stretch isParameters between,
      dropWhile_stretch isIntermediates last]
    simp [isFinal']

/-! ## What is removed -/

theorem withoutControls_cons {c : Char} (other : c ≠ escapeChar) (t : Text) :
    withoutControls (c :: t) = c :: withoutControls t := by
  rw [withoutControls, if_neg other]

theorem withoutControls_of_none {t : Text} (h : afterControl? t = none) :
    withoutControls (escapeChar :: t) = escapeChar :: withoutControls t := by
  rw [withoutControls, if_pos rfl]
  split
  · next rest found => cases h.symm.trans found
  · rfl

theorem withoutControls_of_some {t rest : Text} (h : afterControl? t = some rest) :
    withoutControls (escapeChar :: t) = withoutControls rest := by
  rw [withoutControls, if_pos rfl]
  split
  · next rest' found =>
    cases h.symm.trans found
    rfl
  · next found => cases h.symm.trans found

/-- Induction along the removal: a control sequence that begins at the front of the text, an escape
character that begins none, or any other character. -/
theorem controls_induction {motive : Text → Prop} (nil : motive [])
    (control : ∀ t rest, afterControl? t = some rest → motive rest → motive (escapeChar :: t))
    (escape : ∀ t, afterControl? t = none → motive t → motive (escapeChar :: t))
    (other : ∀ c t, c ≠ escapeChar → motive t → motive (c :: t)) (t : Text) : motive t := by
  induction t using withoutControls.induct with
  | case1 => exact nil
  | case2 t rest h ih => exact control t rest h ih
  | case3 t h ih => exact escape t h ih
  | case4 c t h ih => exact other c t h ih

theorem length_withoutControls_le (t : Text) : (withoutControls t).length ≤ t.length := by
  induction t using controls_induction with
  | nil => simp [withoutControls]
  | control t rest h ih =>
    have shorter := length_afterControl? h
    rw [withoutControls_of_some h, List.length_cons]
    omega
  | escape t h ih =>
    rw [withoutControls_of_none h]
    exact Nat.succ_le_succ ih
  | other c t h ih =>
    rw [withoutControls_cons h]
    exact Nat.succ_le_succ ih

/-! ## Texts that hold a control sequence -/

theorem holdsControl_cons_iff {c : Char} {t : Text} : HoldsControl (c :: t) ↔
    (c = escapeChar ∧ ∃ rest, afterControl? t = some rest) ∨ HoldsControl t := by
  constructor
  · rintro ⟨s, control, piece⟩
    rcases List.infix_cons_iff.mp piece with ⟨rest, front⟩ | piece
    · obtain ⟨_, _, _, rfl, _⟩ := id control
      obtain ⟨rfl, rfl⟩ := List.cons.inj front
      exact .inl ⟨rfl, rest, afterControl?_eq_some_iff.mpr ⟨_, control, rfl⟩⟩
    · exact .inr ⟨s, control, piece⟩
  · rintro (⟨rfl, rest, h⟩ | ⟨s, control, piece⟩)
    · obtain ⟨s, control, rfl⟩ := afterControl?_eq_some_iff.mp h
      exact ⟨_, control, List.infix_cons_iff.mpr (.inl ⟨rest, rfl⟩)⟩
    · exact ⟨s, control, List.infix_cons_iff.mpr (.inr piece)⟩

/-- A text is left alone if and only if it holds no control sequence. -/
theorem withoutControls_eq_self_iff {t : Text} : withoutControls t = t ↔ ¬ HoldsControl t := by
  induction t using controls_induction with
  | nil =>
    refine iff_of_true (by rw [withoutControls]) ?_
    rintro ⟨s, ⟨_, _, _, rfl, _⟩, piece⟩
    cases List.eq_nil_of_infix_nil piece
  | control t rest h ih =>
    refine iff_of_false (fun same => ?_) fun none =>
      none (holdsControl_cons_iff.mpr (.inl ⟨rfl, rest, h⟩))
    have shorter := length_afterControl? h
    have le := length_withoutControls_le rest
    rw [withoutControls_of_some h] at same
    rw [same, List.length_cons] at le
    omega
  | escape t h ih =>
    rw [withoutControls_of_none h, List.cons_inj_right, ih, holdsControl_cons_iff, h]
    simp
  | other c t h ih =>
    rw [withoutControls_cons h, List.cons_inj_right, ih, holdsControl_cons_iff]
    simp [h]

/-- What stands before the first escape character is left alone. -/
theorem withoutControls_append {a : Text} (plain : escapeChar ∉ a) (b : Text) :
    withoutControls (a ++ b) = a ++ withoutControls b := by
  induction a with
  | nil => rfl
  | cons c a ih =>
    have other : c ≠ escapeChar := fun same => plain (same ▸ List.mem_cons_self)
    rw [List.cons_append, withoutControls_cons other,
      ih fun mem => plain (List.mem_cons_of_mem _ mem), List.cons_append]

/-- It belongs to no control sequence. -/
theorem holdsControl_append_iff {a b : Text} (plain : escapeChar ∉ a) :
    HoldsControl (a ++ b) ↔ HoldsControl b := by
  rw [← not_iff_not, ← withoutControls_eq_self_iff, ← withoutControls_eq_self_iff,
    withoutControls_append plain, List.append_cancel_left_eq]

/-! ## Lines -/

theorem IsControl.newline_not_mem {s : Text} (h : IsControl s) : '\n' ∉ s := by
  obtain ⟨parameters, intermediates, final, rfl, isParameters, isIntermediates, isFinal'⟩ := h
  have parameter : '\n' ∉ parameters := fun mem => by cases isParameters _ mem
  have intermediate : '\n' ∉ intermediates := fun mem => by cases isIntermediates _ mem
  have last : '\n' ≠ final := by
    rintro rfl
    cases isFinal'
  simp [escapeChar, parameter, intermediate, last]

/-- What stands at the front of a text and holds no line feed stands at the front of its first
line. -/
theorem exists_of_append_newline {s rest a b : Text} (plain : '\n' ∉ s)
    (h : a ++ '\n' :: b = s ++ rest) : ∃ u, a = s ++ u ∧ rest = u ++ '\n' :: b := by
  rcases List.append_eq_append_iff.mp h with ⟨u, front, behind⟩ | ⟨u, front, behind⟩
  · cases u with
    | nil => exact ⟨[], by simpa using front.symm, by simpa using behind.symm⟩
    | cons c u =>
      cases behind
      simp [front] at plain
  · exact ⟨u, front, behind⟩

theorem afterControl?_append_newline (a b : Text) :
    afterControl? (a ++ '\n' :: b) = (afterControl? a).map (· ++ '\n' :: b) := by
  ext rest
  constructor
  · intro h
    obtain ⟨s, control, parts⟩ := afterControl?_eq_some_iff.mp h
    have plain : '\n' ∉ s := fun mem => control.newline_not_mem (List.mem_cons_of_mem _ mem)
    obtain ⟨u, rfl, rfl⟩ := exists_of_append_newline plain parts
    exact Option.map_eq_some_iff.mpr ⟨u, afterControl?_eq_some_iff.mpr ⟨s, control, rfl⟩, rfl⟩
  · intro h
    obtain ⟨u, found, rfl⟩ := Option.map_eq_some_iff.mp h
    obtain ⟨s, control, rfl⟩ := afterControl?_eq_some_iff.mp found
    exact afterControl?_eq_some_iff.mpr ⟨s, control, List.append_assoc ..⟩

/-- No control sequence goes over a line end, so each line loses its own. -/
theorem withoutControls_append_newline (a b : Text) :
    withoutControls (a ++ '\n' :: b) = withoutControls a ++ '\n' :: withoutControls b := by
  induction a using controls_induction with
  | nil =>
    rw [List.nil_append, withoutControls_cons (by decide), withoutControls, List.nil_append]
  | control t rest h ih =>
    have behind := afterControl?_append_newline t b
    rw [h] at behind
    rw [List.cons_append, withoutControls_of_some behind, ih, withoutControls_of_some h]
  | escape t h ih =>
    have behind := afterControl?_append_newline t b
    rw [h] at behind
    rw [List.cons_append, withoutControls_of_none behind, ih, withoutControls_of_none h,
      List.cons_append]
  | other c t h ih =>
    rw [List.cons_append, withoutControls_cons h, ih, withoutControls_cons h, List.cons_append]

theorem joinLines_cons_cons (a b : Text) (lines : List Text) :
    joinLines (a :: b :: lines) = a ++ '\n' :: joinLines (b :: lines) := by
  simp [joinLines, List.intercalate]

theorem withoutControls_joinLines (lines : List Text) :
    withoutControls (joinLines lines) = joinLines (lines.map withoutControls) := by
  induction lines with
  | nil => simp [joinLines, withoutControls]
  | cons a lines ih =>
    cases lines with
    | nil => simp [joinLines]
    | cons b lines =>
      rw [joinLines_cons_cons, withoutControls_append_newline, ih, List.map_cons, List.map_cons,
        List.map_cons, joinLines_cons_cons]

/-- A control sequence in lines is one in a line. -/
theorem holdsControl_append_newline {a b : Text} :
    HoldsControl (a ++ '\n' :: b) ↔ HoldsControl a ∨ HoldsControl b := by
  rw [← not_iff_not, not_or, ← withoutControls_eq_self_iff, ← withoutControls_eq_self_iff,
    ← withoutControls_eq_self_iff, withoutControls_append_newline]
  constructor
  · intro same
    -- neither part gets longer, so neither gets shorter
    have left := length_withoutControls_le a
    have right := length_withoutControls_le b
    have whole := congrArg List.length same
    simp only [List.length_append, List.length_cons] at whole
    obtain ⟨first, second⟩ := List.append_inj same (by omega)
    exact ⟨first, (List.cons.inj second).2⟩
  · rintro ⟨left, right⟩
    rw [left, right]

theorem not_holdsControl_of_not_mem {t : Text} (plain : escapeChar ∉ t) : ¬ HoldsControl t :=
  withoutControls_eq_self_iff.mp (withoutControls_eq_self plain)

theorem holdsControl_joinLines {lines : List Text} :
    HoldsControl (joinLines lines) ↔ ∃ line ∈ lines, HoldsControl line := by
  induction lines with
  | nil => simpa [joinLines] using not_holdsControl_of_not_mem List.not_mem_nil
  | cons a lines ih =>
    cases lines with
    | nil => simp [joinLines]
    | cons b lines =>
      rw [joinLines_cons_cons, holdsControl_append_newline, ih, List.exists_mem_cons_iff _ a]

end Lexis.Text
