import Lexis.Proofs.Session

/-!
# The parts of a text that a cursor has passed

A cursor can be used without any rule for tokens: it looks ahead, reads a character, drops what is
pending or gives it out, in any order and any number of times. Reading at the end of the text does
nothing, and a token may be given out of nothing.

However it is used, what has been given out and dropped, in its order, makes up the text in front of
the pending lexeme. Each operation moves text from one part to the next, so one step shows what is
added to the part that is passed, and a session adds it up.

Results:
1. `Partitions.of_passed`: when pieces of the text and the pending lexeme make up what has been read.
2. `passed_perform`, `passed_session`: what an operation, and any number of them, add to what is
   passed.
3. `index_session`: the place that a session leads to.
4. `getElem?_session`: an answer in a session is the one given by the cursor that the operations
   before it lead to.
5. `Counted.perform_counted`, `Counted.session_ofText`: a cursor is as good as the source with two
   numbers, how many characters have been read and how many of them are pending.
   `Counted.exists_counted`: any two numbers within the bounds are those of a cursor.
6. `cursor_partitions_source`: the parts of the text and the offsets of the tokens, for every
   session.
-/

namespace Lexis

namespace Cursor

/-! ## Operations -/

/-- What a cursor can be asked for. -/
inductive Operation
  | has (n : Int)
  | peek (n : Int)
  | advance
  | skip
  | emit (kind : Kind)
deriving DecidableEq

/-- What it answers: whether a character is there, which one if any, nothing at all, or a token. -/
inductive Response
  | there (there : Bool)
  | char (char : Option Char)
  | done
  | token (token : Token)
deriving DecidableEq

/-- The answer to an operation, and the cursor after it. -/
def perform (c : Cursor) : Operation → Response × Cursor
  | .has n => (.there (c.has n), c)
  | .peek n => (.char (c.peek? n), c)
  | .advance => (.done, c.advance 1)
  | .skip => (.done, c.skip)
  | .emit kind => (.token (c.token kind), c.skip)

def session : List Operation → Cursor → List Response × Cursor
  | [], c => ([], c)
  | op :: ops, c =>
    ((c.perform op).1 :: (session ops (c.perform op).2).1, (session ops (c.perform op).2).2)

/-- What an operation takes from the pending lexeme: the piece of the source that is dropped, or the
lexeme of the token that is given out. -/
def released (c : Cursor) : Operation → List Text
  | .skip => [c.source.extract (c.index - c.pending.length) c.index]
  | .emit kind => [(c.token kind).lexeme]
  | .has _ => []
  | .peek _ => []
  | .advance => []

/-- What operations one after the other drop and give out, in their order. -/
def releases : List Operation → Cursor → List Text
  | [], _ => []
  | op :: ops, c => c.released op ++ releases ops (c.perform op).2

variable {c : Cursor} {op : Operation} {ops : List Operation}

/-! ## The parts of the text -/

theorem index_ofText (t : Text) : (ofText t).index = 0 := rfl

theorem start_eq_sub (c : Cursor) : c.index - c.pending.length = c.start :=
  Nat.add_sub_cancel _ _

theorem extract_index_source (c : Cursor) :
    c.source.extract (c.index - c.pending.length) c.index = c.pending := by
  rw [start_eq_sub, Passage.extract_pending]

/-- What has been read is what is passed and what is pending. -/
theorem take_index_source (c : Cursor) :
    c.source.take c.index = c.passed.reverse ++ c.pending := by
  rw [source, ← List.append_assoc]
  refine List.take_left' ?_
  rw [List.length_append, List.length_reverse, index, c.start_eq]

theorem reverse_passed_skip (c : Cursor) :
    c.skip.passed.reverse = c.passed.reverse ++ c.pending := by
  rw [skip, List.reverse_append, List.reverse_reverse]

/-- `c.Partitions source pieces`: the cursor stands in the source, the pending lexeme ends where it
stands, and the pieces and the pending lexeme make up what has been read. -/
structure Partitions (c : Cursor) (source : Text) (pieces : List Text) : Prop where
  text : c.source = source
  pending_le : c.pending.length ≤ c.index
  index_le : c.index ≤ source.length
  pieces : pieces.flatten ++ source.extract (c.index - c.pending.length) c.index =
    source.take c.index

theorem Partitions.of_passed {pieces : List Text} (h : c.passed.reverse = pieces.flatten) :
    c.Partitions c.source pieces := by
  refine ⟨rfl, pending_le_index c, index_le_length_source c, ?_⟩
  rw [extract_index_source, take_index_source, h]

/-! ## What an operation does -/

theorem source_perform (c : Cursor) (op : Operation) : (c.perform op).2.source = c.source := by
  cases op with
  | has | peek => rfl
  | advance => exact source_advance c 1
  | skip | emit => exact source_skip c

/-- What an operation drops or gives out joins what is passed. -/
theorem passed_perform (c : Cursor) (op : Operation) :
    (c.perform op).2.passed.reverse = c.passed.reverse ++ (c.released op).flatten := by
  cases op with
  | has | peek | advance => exact (List.append_nil _).symm
  | skip =>
    rw [released, extract_index_source, List.flatten_singleton]
    exact reverse_passed_skip c
  | emit kind =>
    rw [released, List.flatten_singleton]
    exact reverse_passed_skip c

/-- One operation reads a character, and does so only in front of the end of the text. -/
theorem index_perform (c : Cursor) (op : Operation) :
    (c.perform op).2.index = min (c.index + [op].count .advance) c.source.length := by
  have stays : c.index = min c.index c.source.length :=
    (Nat.min_eq_left (index_le_length_source c)).symm
  cases op with
  | has | peek => exact stays
  | advance =>
    rw [length_source, List.count_singleton_self, Nat.add_min_add_left]
    exact index_advance c 1
  | skip | emit =>
    refine (index_skip c).trans ?_
    exact stays

theorem exists_of_token {token : Token} (answer : (c.perform op).1 = .token token) :
    ∃ kind, token = c.token kind := by
  cases op with
  | emit kind =>
    cases answer
    exact ⟨kind, rfl⟩
  | has | peek | advance | skip => cases answer

theorem start_token (c : Cursor) (kind : Kind) :
    (c.token kind).start = c.passed.reverse.length := by
  rw [List.length_reverse, ← c.start_eq]
  rfl

theorem lexeme_token (c : Cursor) (kind : Kind) : (c.token kind).lexeme =
    c.source.extract (c.token kind).start.toNat (c.token kind).stop.toNat := by
  rw [Passage.stop_token]
  exact (Passage.extract_pending c).symm

/-! ## Sessions -/

theorem source_session (ops : List Operation) (c : Cursor) :
    (session ops c).2.source = c.source := by
  induction ops generalizing c with
  | nil => rfl
  | cons op ops ih => exact (ih _).trans (source_perform c op)

/-- What a session drops and gives out joins what is passed, in its order. -/
theorem passed_session (ops : List Operation) (c : Cursor) :
    (session ops c).2.passed.reverse = c.passed.reverse ++ (releases ops c).flatten := by
  induction ops generalizing c with
  | nil => exact (List.append_nil _).symm
  | cons op ops ih =>
    calc (session ops (c.perform op).2).2.passed.reverse
        = (c.perform op).2.passed.reverse ++ (releases ops (c.perform op).2).flatten := ih _
      _ = c.passed.reverse ++ (c.released op).flatten ++
            (releases ops (c.perform op).2).flatten := by rw [passed_perform]
      _ = c.passed.reverse ++ (releases (op :: ops) c).flatten := by
        rw [releases, List.flatten_append, List.append_assoc]

theorem index_session (ops : List Operation) (c : Cursor) :
    (session ops c).2.index = min (c.index + ops.count .advance) c.source.length := by
  induction ops generalizing c with
  | nil => exact (Nat.min_eq_left (index_le_length_source c)).symm
  | cons op ops ih =>
    have counts : (op :: ops).count .advance = [op].count .advance + ops.count .advance := by
      rw [← List.singleton_append, List.count_append]
    have rest := ih (c.perform op).2
    rw [source_perform, index_perform] at rest
    rw [session, rest, counts]
    omega

theorem getElem?_session (ops : List Operation) (c : Cursor) (i : Nat) :
    (session ops c).1[i]? = ops[i]?.map fun op => ((session (ops.take i) c).2.perform op).1 := by
  induction ops generalizing c i with
  | nil => rfl
  | cons op ops ih =>
    cases i with
    | zero => rfl
    | succ i => exact ih _ i

/-- Reading several characters at once is reading them one after the other. -/
theorem session_replicate_advance (c : Cursor) (n : Nat) :
    (session (List.replicate n .advance) c).2 = c.advance n := by
  induction n generalizing c with
  | zero => exact (advance_zero c).symm
  | succ n ih =>
    calc (session (List.replicate n .advance) (c.advance 1)).2
        = (c.advance 1).advance n := ih _
      _ = c.advance (n + 1) := by rw [advance_advance, Nat.add_comm]

theorem passed_session_ofText (ops : List Operation) (source : Text) :
    (session ops (ofText source)).2.passed.reverse = (releases ops (ofText source)).flatten :=
  passed_session ops (ofText source)

/-! ## The source and two numbers -/

/-- A source, the number of characters read, and the number of those that are pending. -/
structure Counted where
  source : Text
  index : Nat
  pending : Nat
deriving DecidableEq

namespace Counted

def ofText (source : Text) : Counted := ⟨source, 0, 0⟩

def has (k : Counted) (n : Int) : Bool := k.index + n < k.source.length

/-- The character `n` places on. A negative place is counted from the end of the source. -/
def peek? (k : Counted) (n : Int) : Option Char :=
  let place := k.index + n
  let wrapped := if place < 0 then place + k.source.length else place
  if wrapped < 0 then none else k.source[wrapped.toNat]?

/-- Counts the next character, unless the end is reached. -/
def advance (k : Counted) : Counted :=
  if k.index < k.source.length then { k with index := k.index + 1, pending := k.pending + 1 }
  else k

def skip (k : Counted) : Counted := { k with pending := 0 }

def token (k : Counted) (kind : Kind) : Token :=
  ⟨kind, k.source.extract (k.index - k.pending) k.index, (k.index - k.pending : Nat)⟩

def perform (k : Counted) : Operation → Response × Counted
  | .has n => (.there (k.has n), k)
  | .peek n => (.char (k.peek? n), k)
  | .advance => (.done, k.advance)
  | .skip => (.done, k.skip)
  | .emit kind => (.token (k.token kind), k.skip)

def session : List Operation → Counted → List Response × Counted
  | [], k => ([], k)
  | op :: ops, k =>
    ((k.perform op).1 :: (session ops (k.perform op).2).1, (session ops (k.perform op).2).2)

end Counted

def counted (c : Cursor) : Counted := ⟨c.source, c.index, c.pending.length⟩

namespace Counted

theorem counted_ofText (source : Text) : (Cursor.ofText source).counted = ofText source := rfl

theorem has_counted (c : Cursor) (n : Int) : c.counted.has n = c.has n := by
  have length : ((c.source.length : Nat) : Int) = c.index + c.ahead.length := by
    rw [length_source]
    exact Int.natCast_add _ _
  simp only [has, counted, Cursor.has, remaining, length, Int.add_lt_add_iff_left]
  rfl

theorem peek?_counted (c : Cursor) (n : Int) : c.counted.peek? n = c.peek? n := rfl

/-- At the end of the source there is nothing to count and nothing to move. -/
theorem advance_counted (c : Cursor) : c.counted.advance = (c.advance 1).counted := by
  have length := length_source c
  cases behind : c.ahead with
  | nil =>
    have still : c.advance 1 = c := by
      cases c
      cases behind
      simp [Cursor.advance]
    have ended : ¬ c.index < c.source.length := by
      rw [length, behind]
      exact Nat.lt_irrefl _
    rw [still, advance, counted, if_neg ended]
  | cons ch rest =>
    have moves : c.index < c.source.length := by
      rw [length, behind, List.length_cons]
      omega
    have index : (c.advance 1).index = c.index + 1 := by
      rw [index_advance, behind, List.length_cons, Nat.min_eq_left (Nat.le_add_left 1 _)]
    have pending : (c.advance 1).pending.length = c.pending.length + 1 := by
      simp [Cursor.advance, behind]
    rw [advance, counted, if_pos moves, counted, source_advance, index, pending]

theorem skip_counted (c : Cursor) : c.counted.skip = c.skip.counted := by
  rw [skip, counted, counted, source_skip, index_skip]
  rfl

/-- The slice between the two numbers is the pending lexeme. -/
theorem token_counted (c : Cursor) (kind : Kind) : c.counted.token kind = c.token kind := by
  have lexeme : c.counted.source.extract (c.counted.index - c.counted.pending) c.counted.index =
      c.pending := extract_index_source c
  have start : c.counted.index - c.counted.pending = c.start := start_eq_sub c
  rw [token, lexeme, start]
  rfl

theorem perform_counted (c : Cursor) (op : Operation) :
    c.counted.perform op = ((c.perform op).1, (c.perform op).2.counted) := by
  cases op with
  | has n => rw [perform, has_counted]; rfl
  | peek n => rw [perform, peek?_counted]; rfl
  | advance => rw [perform, advance_counted]; rfl
  | skip => rw [perform, skip_counted]; rfl
  | emit kind => rw [perform, token_counted, skip_counted]; rfl

/-- A cursor and its numbers give the same answers, and stay in step. -/
theorem session_counted (ops : List Operation) (c : Cursor) :
    session ops c.counted = ((Cursor.session ops c).1, (Cursor.session ops c).2.counted) := by
  induction ops generalizing c with
  | nil => rfl
  | cons op ops ih =>
    rw [session, perform_counted, ih]
    rfl

theorem session_ofText (ops : List Operation) (source : Text) :
    session ops (ofText source) = ((Cursor.session ops (Cursor.ofText source)).1,
      (Cursor.session ops (Cursor.ofText source)).2.counted) := by
  rw [← counted_ofText, session_counted]

/-- The text passed, what is pending and the text ahead are cut out of the source at the two
numbers. -/
theorem exists_counted {k : Counted} (pending_le : k.pending ≤ k.index)
    (index_le : k.index ≤ k.source.length) : ∃ c : Cursor, c.counted = k := by
  obtain ⟨source, index, pending⟩ := k
  have passed : (source.take (index - pending)).length = index - pending :=
    List.length_take_of_le ((Nat.sub_le _ _).trans index_le)
  have between : (source.extract (index - pending) index).length = pending := by
    rw [List.extract_eq_take_drop, List.length_take, List.length_drop]
    simp only at pending_le index_le
    omega
  have whole : source.take (index - pending) ++
      (source.extract (index - pending) index ++ source.drop index) = source := by
    have behind : source.drop index =
        (source.drop (index - pending)).drop (index - (index - pending)) := by
      rw [List.drop_drop, Nat.add_sub_cancel' (Nat.sub_le _ _)]
    rw [List.extract_eq_take_drop, behind, List.take_append_drop, List.take_append_drop]
  let c : Cursor :=
    { passed := (source.take (index - pending)).reverse
      start := index - pending
      pending := source.extract (index - pending) index
      ahead := source.drop index
      start_eq := by rw [List.length_reverse, passed] }
  have place : c.index = index := by
    rw [Cursor.index, between]
    exact Nat.sub_add_cancel pending_le
  refine ⟨c, ?_⟩
  rw [counted, place, Cursor.source, List.reverse_reverse, whole, between]

end Counted

end Cursor

/-- However a cursor is used, what it has given out and dropped, and what is pending, make up what it
has read of the source, which is one character for each time it was asked to read, or all of them.
Each token begins where all that was given out and dropped before it ends, and is the piece of the
source that its offsets name. -/
theorem cursor_partitions_source (source : Text) (ops : List Cursor.Operation) :
    (Cursor.session ops (Cursor.ofText source)).2.Partitions source
      (Cursor.releases ops (Cursor.ofText source)) ∧
    (Cursor.session ops (Cursor.ofText source)).2.index =
      min (ops.count .advance) source.length ∧
    ∀ (i : Nat) (token : Token),
      (Cursor.session ops (Cursor.ofText source)).1[i]? = some (.token token) →
      token.start = (Cursor.releases (ops.take i) (Cursor.ofText source)).flatten.length ∧
      token.lexeme = source.extract token.start.toNat token.stop.toNat := by
  have same (before : List Cursor.Operation) :
      (Cursor.session before (Cursor.ofText source)).2.source = source :=
    Cursor.source_session before (Cursor.ofText source)
  have parts := Cursor.Partitions.of_passed (Cursor.passed_session_ofText ops source)
  rw [same] at parts
  have place := Cursor.index_session ops (Cursor.ofText source)
  rw [Cursor.source_ofText, Cursor.index_ofText, Nat.zero_add] at place
  refine ⟨parts, place, ?_⟩
  intro i token answer
  rw [Cursor.getElem?_session] at answer
  obtain ⟨op, -, emitted⟩ := Option.map_eq_some_iff.mp answer
  obtain ⟨kind, rfl⟩ := Cursor.exists_of_token emitted
  refine ⟨?_, ?_⟩
  · rw [Cursor.start_token, Cursor.passed_session_ofText]
  · rw [Cursor.lexeme_token, same]

/-- Reading past the end does nothing, and the last token is given out of nothing. -/
example : (Cursor.session
    [.advance, .emit .identifier, .advance, .advance, .skip, .emit .operator]
    (Cursor.ofText ['a', ' '])).1 =
      [.done, .token ⟨.identifier, ['a'], 0⟩, .done, .done, .done, .token ⟨.operator, [], 2⟩] := by
  decide

end Lexis
