import Lexis.Report
import Mathlib.Algebra.Ring.Nat
import Mathlib.Data.List.DropRight

/-!
# Offsets and locations

An offset and a location name the same place of a text, one by the characters before it, the other by
a line and a column. They can be told from each other: with the text split at its line feeds, each
offset of the text has one location, each location within the lines has one offset, and the order is
the same. The line that is shown beside a location is the line it names, although the two are found
by different searches.

A place is described by the lines above it and the part of its own line before it (`LineAt`). Both
the offset and the location are read off that description, and each place has one.

Results:
1. `LineAt.exists_of_le`, `LineAt.of_splitOn`: the description of an offset, and that of a line and
   a column.
2. `LineAt.ofOffset`, `LineAt.sourceLine`: the location and the line that is shown, from the
   description.
3. `Location.before_ofOffset`: the location moves on with the offset.
4. `offsets_locations_bijective`: offsets and locations name the same places.
-/

namespace Lexis

/-! ## Lines -/

/-- Induction along the lines of a text. -/
theorem Text.lines_induction {motive : Text → Prop}
    (last : ∀ line : Text, '\n' ∉ line → motive line)
    (more : ∀ line rest : Text, '\n' ∉ line → motive rest → motive (line ++ '\n' :: rest))
    (t : Text) : motive t := by
  induction length : t.length using Nat.strong_induction_on generalizing t with
  | _ n ih =>
    by_cases ended : '\n' ∈ t
    · obtain ⟨line, rest, rfl, plain⟩ := List.eq_append_cons_of_mem ended
      refine more line rest plain (ih rest.length ?_ rest rfl)
      rw [← length, List.length_append, List.length_cons]
      omega
    · exact last t ended

/-- A line feed ends the line in front of it. -/
theorem Text.takeWhile_append_newline (a b : Text) :
    (a ++ '\n' :: b).takeWhile (· ≠ '\n') = a.takeWhile (· ≠ '\n') := by
  induction a with
  | nil => simp
  | cons c a ih =>
    rw [List.cons_append, List.takeWhile_cons, List.takeWhile_cons, ih]

theorem Text.takeWhile_of_newline_not_mem {line : Text} (plain : '\n' ∉ line) :
    line.takeWhile (· ≠ '\n') = line := by
  rw [List.takeWhile_eq_self_iff]
  intro c mem
  exact decide_eq_true fun h => plain (h ▸ mem)

/-- `LineAt source above row column`: in the text, the lines `above` stand before the line `row`,
and the place that is meant is behind `column` characters of the row. -/
inductive LineAt : Text → List Text → Text → Nat → Prop
  | last {row : Text} {column : Nat} : '\n' ∉ row → column ≤ row.length → LineAt row [] row column
  | first {row rest : Text} {column : Nat} : '\n' ∉ row → column ≤ row.length →
      LineAt (row ++ '\n' :: rest) [] row column
  | later {line rest row : Text} {above : List Text} {column : Nat} : '\n' ∉ line →
      LineAt rest above row column → LineAt (line ++ '\n' :: rest) (line :: above) row column

/-- The number of characters before a place: each line above it takes its length, and one more for
the line feed that ends it. -/
def LineAt.offset (above : List Text) (column : Nat) : Nat :=
  (above.map fun line => line.length + 1).sum + column

namespace Location

theorem lineSoFar_append_newline (a b : Text) : lineSoFar (a ++ '\n' :: b) = lineSoFar b := by
  have turned : (a ++ '\n' :: b).reverse = b.reverse ++ '\n' :: a.reverse := by simp
  rw [lineSoFar, lineSoFar, turned, Text.takeWhile_append_newline]

theorem lineSoFar_append_of_not_mem {b : Text} (plain : '\n' ∉ b) (a : Text) :
    lineSoFar (a ++ b) = lineSoFar a ++ b := by
  have all : ∀ c ∈ b.reverse, decide (c ≠ '\n') = true := by
    intro c mem
    exact decide_eq_true fun h => plain (h ▸ List.mem_reverse.mp mem)
  rw [lineSoFar, lineSoFar, List.reverse_append, List.takeWhile_append_of_pos all,
    List.reverse_append, List.reverse_reverse]

theorem lineSoFar_of_not_mem {b : Text} (plain : '\n' ∉ b) : lineSoFar b = b :=
  lineSoFar_append_of_not_mem plain []

end Location

namespace LineAt

variable {source row : Text} {above : List Text} {column : Nat}

@[simp] theorem offset_nil (column : Nat) : offset [] column = column := Nat.zero_add column

theorem offset_cons (line : Text) (above : List Text) (column : Nat) :
    offset (line :: above) column = line.length + (offset above column + 1) := by
  simp only [offset, List.map_cons, List.sum_cons]
  omega

/-- Behind the first line, the offset counts in what is left. -/
theorem take_offset_cons (line rest : Text) (above : List Text) (column : Nat) :
    (line ++ '\n' :: rest).take (offset (line :: above) column) =
      line ++ '\n' :: rest.take (offset above column) := by
  rw [offset_cons, List.take_length_add_append, List.take_succ_cons]

theorem drop_offset_cons (line rest : Text) (above : List Text) (column : Nat) :
    (line ++ '\n' :: rest).drop (offset (line :: above) column) =
      rest.drop (offset above column) := by
  rw [offset_cons, List.drop_length_add_append, List.drop_succ_cons]

/-! ## Each place has a description -/

theorem exists_of_le {n : Nat} (le : n ≤ source.length) :
    ∃ above row column, LineAt source above row column ∧ n = offset above column := by
  induction source using Text.lines_induction generalizing n with
  | last line plain => exact ⟨[], line, n, .last plain le, (offset_nil n).symm⟩
  | more line rest plain ih =>
    by_cases here : n ≤ line.length
    · exact ⟨[], line, n, .first plain here, (offset_nil n).symm⟩
    · obtain ⟨m, rfl⟩ : ∃ m, n = line.length + (m + 1) :=
        Nat.exists_eq_add_of_lt (Nat.lt_of_not_le here)
      rw [List.length_append, List.length_cons] at le
      obtain ⟨above, row, column, place, rfl⟩ := ih (n := m) (by omega)
      exact ⟨line :: above, row, column, .later plain place, (offset_cons _ _ _).symm⟩

theorem of_splitOn {lines : List Text} (split : source.splitOn '\n' = above ++ row :: lines)
    (le : column ≤ row.length) : LineAt source above row column := by
  induction source using Text.lines_induction generalizing above with
  | last line plain =>
    rw [List.splitOn_eq_singleton plain] at split
    cases above with
    | nil =>
      obtain ⟨rfl, _⟩ := List.cons.inj split
      exact .last plain le
    | cons x above => simp at split
  | more line rest plain ih =>
    rw [List.splitOn_append_cons_self_of_not_mem plain] at split
    cases above with
    | nil =>
      obtain ⟨rfl, _⟩ := List.cons.inj split
      exact .first plain le
    | cons x above =>
      obtain ⟨rfl, behind⟩ := List.cons.inj split
      exact .later plain (ih behind)

/-! ## What the description says -/

theorem splitOn (h : LineAt source above row column) :
    ∃ lines, source.splitOn '\n' = above ++ row :: lines := by
  induction h with
  | last plain => exact ⟨[], List.splitOn_eq_singleton plain⟩
  | first plain => exact ⟨_, List.splitOn_append_cons_self_of_not_mem plain _⟩
  | later plain _ ih =>
    obtain ⟨lines, split⟩ := ih
    exact ⟨lines, by rw [List.splitOn_append_cons_self_of_not_mem plain, split]; rfl⟩

theorem column_le (h : LineAt source above row column) : column ≤ row.length := by
  induction h with
  | last _ le | first _ le => exact le
  | later _ _ ih => exact ih

theorem offset_le (h : LineAt source above row column) :
    offset above column ≤ source.length := by
  induction h with
  | last _ le =>
    rwa [offset_nil]
  | first _ le =>
    rw [offset_nil, List.length_append]
    exact Nat.le_add_right_of_le le
  | later _ _ ih =>
    rw [offset_cons, List.length_append, List.length_cons]
    exact Nat.add_le_add_left (Nat.succ_le_succ ih) _

theorem count_take (h : LineAt source above row column) :
    (source.take (offset above column)).count '\n' = above.length := by
  have none {line : Text} (plain : '\n' ∉ line) (n : Nat) : (line.take n).count '\n' = 0 :=
    List.count_eq_zero.mpr fun mem => plain (List.mem_of_mem_take mem)
  induction h with
  | last plain _ => rw [offset_nil, none plain, List.length_nil]
  | first plain le =>
    rw [offset_nil, List.take_append_of_le_length le, none plain, List.length_nil]
  | later plain _ ih =>
    rw [take_offset_cons, List.count_append, List.count_cons_self, ih,
      List.count_eq_zero.mpr plain, List.length_cons, Nat.zero_add]

theorem lineSoFar_take (h : LineAt source above row column) :
    Location.lineSoFar (source.take (offset above column)) = row.take column := by
  have part {line : Text} (plain : '\n' ∉ line) (n : Nat) :
      Location.lineSoFar (line.take n) = line.take n :=
    Location.lineSoFar_of_not_mem fun mem => plain (List.mem_of_mem_take mem)
  induction h with
  | last plain _ => rw [offset_nil, part plain]
  | first plain le => rw [offset_nil, List.take_append_of_le_length le, part plain]
  | later _ _ ih => rw [take_offset_cons, Location.lineSoFar_append_newline, ih]

theorem takeWhile_drop (h : LineAt source above row column) :
    (source.drop (offset above column)).takeWhile (· ≠ '\n') = row.drop column := by
  have part {line : Text} (plain : '\n' ∉ line) (n : Nat) :
      (line.drop n).takeWhile (· ≠ '\n') = line.drop n :=
    Text.takeWhile_of_newline_not_mem fun mem => plain (List.mem_of_mem_drop mem)
  induction h with
  | last plain _ => rw [offset_nil, part plain]
  | first plain le =>
    rw [offset_nil, List.drop_append_of_le_length le, Text.takeWhile_append_newline, part plain]
  | later _ _ ih => rw [drop_offset_cons, ih]

/-- The location of a place. -/
theorem ofOffset (h : LineAt source above row column) (filename : Text) :
    Location.ofOffset source (offset above column) filename =
      ⟨filename, above.length + 1, column + 1⟩ := by
  simp only [Location.ofOffset, Location.clamp_of_le h.offset_le, h.count_take, h.lineSoFar_take,
    List.length_take_of_le h.column_le]

/-- The line that is shown beside a place is its own. -/
theorem sourceLine (h : LineAt source above row column) :
    sourceLine source (offset above column) = row.rdropWhile (· = '\r') := by
  simp only [Lexis.sourceLine, Location.clamp_of_le h.offset_le, h.lineSoFar_take,
    h.takeWhile_drop, List.take_append_drop]
  rfl

end LineAt

/-! ## Places in order, and outside the text -/

namespace Location

/-- The place is before the other in reading order. -/
def Before (p q : Location) : Prop :=
  p.line < q.line ∨ p.line = q.line ∧ p.column < q.column

/-- The location moves on with the offset: to a later line if there is a line feed in between, and to
a later column otherwise. -/
theorem before_ofOffset {source : Text} {m n : Nat} (lt : m < n) (le : n ≤ source.length)
    (filename : Text) : (ofOffset source m filename).Before (ofOffset source n filename) := by
  obtain ⟨d, rfl⟩ := Nat.exists_eq_add_of_lt lt
  have parts : source.take (m + d + 1) = source.take m ++ (source.drop m).take (d + 1) :=
    List.take_add (i := m) (j := d + 1)
  have length : ((source.drop m).take (d + 1)).length = d + 1 := by
    rw [List.length_take, List.length_drop]
    omega
  generalize (source.drop m).take (d + 1) = between at parts length
  simp only [Before, ofOffset, clamp_of_le le, clamp_of_le (lt.le.trans le), parts,
    List.count_append]
  by_cases feed : '\n' ∈ between
  · refine .inl ?_
    have := List.count_pos_iff.mpr feed
    omega
  · refine .inr ⟨by rw [List.count_eq_zero.mpr feed, Nat.add_zero], ?_⟩
    rw [lineSoFar_append_of_not_mem feed, List.length_append, length]
    omega

/-- Only the place that an offset counts as matters. -/
theorem ofOffset_of_clamp {source : Text} {m n : Int} (h : clamp source m = clamp source n)
    (filename : Text) : ofOffset source m filename = ofOffset source n filename ∧
      sourceLine source m = sourceLine source n := by
  simp only [ofOffset, sourceLine, h, and_self]

/-! ## Places in the lines of a text -/

/-- The place is in the line `row` of the lines: on one of its characters or right behind the
last. -/
structure Within (lines : List Text) (row : Text) (place : Location) : Prop where
  line_pos : 1 ≤ place.line
  line_le : place.line ≤ lines.length
  row_eq : lines[(place.line - 1).toNat]? = some row
  column_pos : 1 ≤ place.column
  column_le : place.column ≤ row.length + 1

/-- The offset of a place in the lines: the lines before it, each with one more for its line feed,
and the columns before it. -/
def offsetIn (lines : List Text) (place : Location) : Int :=
  let above := lines.take (place.line - 1).toNat
  ((above.map fun line => line.length + 1).sum : Nat) + (place.column - 1)

end Location

namespace LineAt

variable {source row : Text} {above : List Text} {column : Nat} {place : Location}

/-- A place that has a description is in its row. -/
theorem within (h : LineAt source above row column) (line : place.line = above.length + 1)
    (columns : place.column = column + 1) : place.Within (source.splitOn '\n') row := by
  obtain ⟨below, split⟩ := h.splitOn
  have column_le := h.column_le
  rw [split]
  refine ⟨by omega, ?_, ?_, by omega, by omega⟩
  · rw [line, List.length_append, List.length_cons]
    omega
  · rw [line, Int.add_sub_cancel, Int.toNat_natCast, List.getElem?_append_right (Nat.le_refl _),
      Nat.sub_self, List.getElem?_cons_zero]

/-- Its offset in the lines is the number of characters before it. -/
theorem offsetIn (h : LineAt source above row column) (line : place.line = above.length + 1)
    (columns : place.column = column + 1) :
    place.offsetIn (source.splitOn '\n') = offset above column := by
  obtain ⟨below, split⟩ := h.splitOn
  simp only [Location.offsetIn, split, line, columns, Int.add_sub_cancel, Int.toNat_natCast,
    List.take_left]
  exact (Int.natCast_add _ _).symm

end LineAt

namespace Location

variable {source row : Text} {place : Location} {filename : Text}

/-- An offset of the text has a location in one of its lines, the one that is shown, and is counted
back from there. -/
theorem within_ofOffset {o : Int} (first : 0 ≤ o) (last : o ≤ source.length) (filename : Text) :
    ∃ row, (ofOffset source o filename).Within (source.splitOn '\n') row ∧
      o = (ofOffset source o filename).offsetIn (source.splitOn '\n') ∧
      sourceLine source o = row.rdropWhile (· = '\r') := by
  obtain ⟨n, rfl⟩ := Int.eq_ofNat_of_zero_le first
  obtain ⟨above, row, column, described, rfl⟩ := LineAt.exists_of_le (Int.ofNat_le.mp last)
  rw [described.ofOffset, described.sourceLine]
  exact ⟨row, described.within rfl rfl, (described.offsetIn rfl rfl).symm, rfl⟩

/-- A place in the lines of the text has an offset. -/
theorem exists_ofOffset (h : place.Within (source.splitOn '\n') row)
    (named : place.filename = filename) :
    ∃ n : Nat, n ≤ source.length ∧ ofOffset source n filename = place := by
  obtain ⟨line_pos, line_le, row_eq, column_pos, column_le⟩ := h
  obtain ⟨r, line⟩ : ∃ r : Nat, place.line = r + 1 := ⟨(place.line - 1).toNat, by omega⟩
  obtain ⟨k, column⟩ : ∃ k : Nat, place.column = k + 1 := ⟨(place.column - 1).toNat, by omega⟩
  have index : (place.line - 1).toNat = r := by omega
  rw [index] at row_eq
  obtain ⟨inside, rfl⟩ := List.getElem?_eq_some_iff.mp row_eq
  have split := List.take_append_drop r (source.splitOn '\n')
  rw [List.drop_eq_getElem_cons inside] at split
  have described : LineAt source _ _ k := LineAt.of_splitOn split.symm (by omega)
  refine ⟨_, described.offset_le, ?_⟩
  rw [described.ofOffset, List.length_take_of_le inside.le, ← line, ← column, ← named]

end Location

/-- Offsets and locations name the same places. The location of an offset is in the line that is
shown beside it, and the offset is counted back from the location; each place in the lines of the
text is the location of one offset; a larger offset has a later location; and an offset outside the
text counts as the nearest end. -/
theorem offsets_locations_bijective (filename source : Text) :
    (∀ o : Int, 0 ≤ o → o ≤ source.length →
      ∃ row, (Location.ofOffset source o filename).Within (source.splitOn '\n') row ∧
        o = (Location.ofOffset source o filename).offsetIn (source.splitOn '\n') ∧
        sourceLine source o = row.rdropWhile (· = '\r')) ∧
    (∀ (place : Location) (row : Text), place.filename = filename →
      place.Within (source.splitOn '\n') row →
      ∃! o : Int, (0 ≤ o ∧ o ≤ source.length) ∧ Location.ofOffset source o filename = place) ∧
    (∀ m n : Int, 0 ≤ m → m < n → n ≤ source.length →
      (Location.ofOffset source m filename).Before (Location.ofOffset source n filename)) ∧
    (∀ o : Int, o < 0 → Location.ofOffset source o filename = Location.ofOffset source 0 filename ∧
      sourceLine source o = sourceLine source 0) ∧
    (∀ o : Int, source.length < o →
      Location.ofOffset source o filename = Location.ofOffset source source.length filename ∧
      sourceLine source o = sourceLine source source.length) := by
  refine ⟨fun o first last => Location.within_ofOffset first last filename, ?_, ?_, ?_, ?_⟩
  · intro place row named within
    obtain ⟨n, le, located⟩ := Location.exists_ofOffset within named
    have first : 0 ≤ (n : Int) := Int.natCast_nonneg n
    have last : (n : Int) ≤ source.length := Int.ofNat_le.mpr le
    refine ⟨n, ⟨⟨first, last⟩, located⟩, ?_⟩
    -- two offsets with one location are counted back to the same number
    rintro o ⟨⟨first', last'⟩, located'⟩
    obtain ⟨_, _, back, _⟩ := Location.within_ofOffset first last filename
    obtain ⟨_, _, back', _⟩ := Location.within_ofOffset first' last' filename
    rw [back, back', located, located']
  · intro m n first lt last
    obtain ⟨i, rfl⟩ := Int.eq_ofNat_of_zero_le first
    obtain ⟨j, rfl⟩ := Int.eq_ofNat_of_zero_le (Int.le_trans first (Int.le_of_lt lt))
    exact Location.before_ofOffset (Int.ofNat_lt.mp lt) (Int.ofNat_le.mp last) filename
  · intro o before
    refine Location.ofOffset_of_clamp ?_ filename
    rw [Location.clamp, Location.clamp, Int.toNat_of_nonpos (Int.le_of_lt before)]
    rfl
  · intro o behind
    refine Location.ofOffset_of_clamp ?_ filename
    simp only [Location.clamp]
    omega

/-- The line feed that ends a line has the last column of it, and a line feed at the end of the text
has an empty line behind it. -/
example :
    let source := "a\r\n\nb\n".toList
    (Location.ofOffset source 2 [], sourceLine source 2) = (⟨[], 1, 3⟩, ['a']) ∧
      (Location.ofOffset source 3 [], sourceLine source 3) = (⟨[], 2, 1⟩, []) ∧
      (Location.ofOffset source 6 [], sourceLine source 6) = (⟨[], 4, 1⟩, []) := by
  decide

end Lexis
