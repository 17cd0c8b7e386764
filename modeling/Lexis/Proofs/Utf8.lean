import Lexis.Text.Utf8

/-!
# Bytes and texts

Reading UTF-8 undoes writing it. A character of several bytes is begun by its first byte and
completed by the others, each of which gives six bits of its code point; the ranges of the second
byte admit just those code points that need that many bytes and are no surrogates.

Results:
1. `Utf8.encodeChar_of_completed`: bytes that are read as one character are the bytes of that
   character.
2. `Utf8.exists_completed_of_char`: the bytes of every longer character are read as one.
3. `Utf8.decode_eq_ok_iff`: reading accepts exactly the bytes that spell a text, and gives that
   text.
-/

namespace Lexis.Utf8

/-! ## Completing a character -/

/-- `b.Completed tail v`: the bytes complete the character begun, and its code point is `v`. -/
inductive Begun.Completed : Begun → List UInt8 → Nat → Prop
  | last {offset low high value : Nat} {byte : UInt8} :
      low ≤ byte.toNat → byte.toNat ≤ high →
      Completed ⟨offset, 0, low, high, value⟩ [byte] (value * 64 + (byte.toNat - 0x80))
  | more {offset further low high value v : Nat} {byte : UInt8} {tail : List UInt8} :
      low ≤ byte.toNat → byte.toNat ≤ high →
      Completed ⟨offset, further, 0x80, 0xbf, value * 64 + (byte.toNat - 0x80)⟩ tail v →
      Completed ⟨offset, further + 1, low, high, value⟩ (byte :: tail) v

/-- A character that the bytes complete is read, and then what stands behind it. -/
theorem Begun.Completed.decodeFrom {b : Begun} {tail : List UInt8} {v : Nat}
    (h : b.Completed tail v) (offset : Nat) (bytes : List UInt8) :
    decodeFrom offset (some b) (tail ++ bytes) =
      (decodeFrom (offset + tail.length) none bytes).map (Char.ofNat v :: ·) := by
  induction h generalizing offset with
  | last low high => simp [Utf8.decodeFrom, low, high]
  | @more _ _ _ _ _ _ _ tail low high _ ih =>
    rw [List.cons_append, Utf8.decodeFrom]
    simp only [low, high, and_self, if_true]
    rw [ih, List.length_cons, Nat.add_assoc, Nat.add_comm 1]

/-- Conversely, reading goes on only where bytes complete the character begun. -/
theorem exists_completed {b : Begun} {offset : Nat} {bytes : List UInt8} {t : Text}
    (h : decodeFrom offset (some b) bytes = .ok t) :
    ∃ tail v rest u, bytes = tail ++ rest ∧ b.Completed tail v ∧ t = Char.ofNat v :: u ∧
      decodeFrom (offset + tail.length) none rest = .ok u := by
  obtain ⟨start, further, low, high, value⟩ := b
  induction further generalizing offset low high value bytes with
  | zero =>
    cases bytes with
    | nil => cases h
    | cons byte bytes =>
      rw [decodeFrom] at h
      split at h
      · next range =>
        cases rest : decodeFrom (offset + 1) none bytes with
        | error e =>
          simp [rest, Except.map] at h
        | ok u =>
          simp [rest, Except.map] at h
          exact ⟨[byte], _, bytes, u, rfl, .last range.1 range.2, h.symm, rest⟩
      · cases h
  | succ further ih =>
    cases bytes with
    | nil => cases h
    | cons byte bytes =>
      rw [decodeFrom] at h
      split at h
      · next range =>
        obtain ⟨tail, v, rest, u, rfl, completed, rfl, after⟩ := ih _ _ _ h
        refine ⟨byte :: tail, v, rest, u, rfl, .more range.1 range.2 completed, rfl, ?_⟩
        rwa [List.length_cons, Nat.add_comm tail.length, ← Nat.add_assoc]
      · cases h

/-! ## The bytes of a character -/

theorem toNat_ofNat_char {v : Nat} (valid : v.isValidChar) : (Char.ofNat v).toNat = v := by
  rw [Char.ofNat, dif_pos valid]
  rfl

/-- The bytes of a character, six bits of its code point in each byte behind the first. -/
theorem encodeChar_eq (c : Char) : String.utf8EncodeChar c =
    if c.toNat ≤ 0x7f then [UInt8.ofNat c.toNat]
    else if c.toNat ≤ 0x7ff then
      [UInt8.ofNat (c.toNat / 64 % 0x20 + 0xc0), UInt8.ofNat (c.toNat % 0x40 + 0x80)]
    else if c.toNat ≤ 0xffff then
      [UInt8.ofNat (c.toNat / 64 / 64 % 0x10 + 0xe0), UInt8.ofNat (c.toNat / 64 % 0x40 + 0x80),
        UInt8.ofNat (c.toNat % 0x40 + 0x80)]
    else
      [UInt8.ofNat (c.toNat / 64 / 64 / 64 % 0x08 + 0xf0),
        UInt8.ofNat (c.toNat / 64 / 64 % 0x40 + 0x80), UInt8.ofNat (c.toNat / 64 % 0x40 + 0x80),
        UInt8.ofNat (c.toNat % 0x40 + 0x80)] := by
  simp only [Nat.div_div_eq_div_mul]
  rfl

theorem ofNat_eq_byte {n : Nat} (byte : UInt8) (eq : n = byte.toNat) : UInt8.ofNat n = byte := by
  rw [eq, UInt8.ofNat_toNat]

/-- A byte that begins a longer character and those that complete it are the bytes of the
character. -/
theorem encodeChar_of_completed {offset : Nat} {byte : UInt8} {b : Begun} {tail : List UInt8}
    {v : Nat} (lead : lead? offset byte.toNat = some (.inr b)) (h : b.Completed tail v) :
    String.utf8EncodeChar (Char.ofNat v) = byte :: tail := by
  unfold lead? at lead
  split at lead
  · cases lead
  split at lead
  · cases lead
  split at lead
  · -- two bytes
    cases lead
    cases h with
    | @last _ _ _ _ x low high =>
      have valid : ((byte.toNat - 0xc0) * 64 + (x.toNat - 0x80)).isValidChar := .inl (by omega)
      rw [encodeChar_eq, toNat_ofNat_char valid, if_neg (by omega), if_pos (by omega),
        ofNat_eq_byte byte (by omega), ofNat_eq_byte x (by omega)]
  split at lead
  · -- three bytes
    cases lead
    cases h with
    | @more _ _ _ _ _ _ x _ low high h =>
      cases h with
      | @last _ _ _ _ y low' high' =>
        have bounds : (byte.toNat = 0xe0 → 0xa0 ≤ x.toNat) ∧ (byte.toNat = 0xed → x.toNat ≤ 0x9f) ∧
            0x80 ≤ x.toNat ∧ x.toNat ≤ 0xbf := by
          grind
        have valid : (((byte.toNat - 0xe0) * 64 + (x.toNat - 0x80)) * 64 +
            (y.toNat - 0x80)).isValidChar := by
          unfold Nat.isValidChar
          omega
        rw [encodeChar_eq, toNat_ofNat_char valid, if_neg (by omega), if_neg (by omega),
          if_pos (by omega), ofNat_eq_byte byte (by omega),
          ofNat_eq_byte x (by omega), ofNat_eq_byte y (by omega)]
  split at lead
  · -- four bytes
    cases lead
    cases h with
    | @more _ _ _ _ _ _ x _ low high h =>
      cases h with
      | @more _ _ _ _ _ _ y _ low' high' h =>
        cases h with
        | @last _ _ _ _ z low'' high'' =>
          have bounds : (byte.toNat = 0xf0 → 0x90 ≤ x.toNat) ∧
              (byte.toNat = 0xf4 → x.toNat ≤ 0x8f) ∧ 0x80 ≤ x.toNat ∧ x.toNat ≤ 0xbf := by
            grind
          have valid : ((((byte.toNat - 0xf0) * 64 + (x.toNat - 0x80)) * 64 +
              (y.toNat - 0x80)) * 64 + (z.toNat - 0x80)).isValidChar := by
            unfold Nat.isValidChar
            omega
          rw [encodeChar_eq, toNat_ofNat_char valid, if_neg (by omega), if_neg (by omega),
            if_neg (by omega), ofNat_eq_byte byte (by omega),
            ofNat_eq_byte x (by omega), ofNat_eq_byte y (by omega),
            ofNat_eq_byte z (by omega)]
  · cases lead

theorem toNat_byte {n : Nat} (small : n < 256) : (UInt8.ofNat n).toNat = n := by
  simp [Nat.mod_eq_of_lt small]

namespace Begun.Completed

variable {offset further low high u v : Nat} {tail : List UInt8}

theorem sixBits_last (least : low ≤ u % 0x40 + 0x80) (most : u % 0x40 + 0x80 ≤ high) :
    Completed ⟨offset, 0, low, high, u / 64⟩ [UInt8.ofNat (u % 0x40 + 0x80)] u := by
  have byte : (UInt8.ofNat (u % 0x40 + 0x80)).toNat = u % 0x40 + 0x80 := toNat_byte (by omega)
  have value : u / 64 * 64 + ((UInt8.ofNat (u % 0x40 + 0x80)).toNat - 0x80) = u := by omega
  have last : Completed ⟨offset, 0, low, high, u / 64⟩ [UInt8.ofNat (u % 0x40 + 0x80)] _ :=
    last (byte.symm ▸ least) (byte.symm ▸ most)
  rwa [value] at last

theorem sixBits_more (least : low ≤ u % 0x40 + 0x80) (most : u % 0x40 + 0x80 ≤ high)
    (h : Completed ⟨offset, further, 0x80, 0xbf, u⟩ tail v) :
    Completed ⟨offset, further + 1, low, high, u / 64⟩ (UInt8.ofNat (u % 0x40 + 0x80) :: tail)
      v := by
  have byte : (UInt8.ofNat (u % 0x40 + 0x80)).toNat = u % 0x40 + 0x80 := toNat_byte (by omega)
  have value : u / 64 * 64 + ((UInt8.ofNat (u % 0x40 + 0x80)).toNat - 0x80) = u := by omega
  refine more (byte.symm ▸ least) (byte.symm ▸ most) ?_
  rwa [value]

end Begun.Completed

theorem exists_completed_of_char (c : Char) (offset : Nat) (long : 0x7f < c.toNat) :
    ∃ byte b tail, String.utf8EncodeChar c = byte :: tail ∧
      lead? offset byte.toNat = some (.inr b) ∧ b.Completed tail c.toNat := by
  have valid : c.toNat.isValidChar := c.valid
  unfold Nat.isValidChar at valid
  rw [encodeChar_eq, if_neg (by omega)]
  split
  · have first : (UInt8.ofNat (c.toNat / 64 % 0x20 + 0xc0)).toNat = c.toNat / 64 + 0xc0 := by
      rw [toNat_byte (by omega)]
      omega
    refine ⟨_, ⟨offset, 0, 0x80, 0xbf, c.toNat / 64⟩, _, rfl, ?_,
      .sixBits_last (by omega) (by omega)⟩
    rw [first, lead?, if_neg (by omega), if_neg (by omega), if_pos (by omega),
      Nat.add_sub_cancel]
  split
  · have first : (UInt8.ofNat (c.toNat / 64 / 64 % 0x10 + 0xe0)).toNat =
        c.toNat / 64 / 64 + 0xe0 := by
      rw [toNat_byte (by omega)]
      omega
    obtain ⟨low, high, lead, least, most⟩ : ∃ low high,
        lead? offset (c.toNat / 64 / 64 + 0xe0) =
          some (.inr ⟨offset, 1, low, high, c.toNat / 64 / 64⟩) ∧
        low ≤ c.toNat / 64 % 0x40 + 0x80 ∧ c.toNat / 64 % 0x40 + 0x80 ≤ high := by
      rw [lead?, if_neg (by omega), if_neg (by omega), if_neg (by omega), if_pos (by omega),
        Nat.add_sub_cancel]
      refine ⟨_, _, rfl, ?_, ?_⟩ <;> split <;> omega
    rw [← first] at lead
    exact ⟨_, _, _, rfl, lead, .sixBits_more least most (.sixBits_last (by omega) (by omega))⟩
  · have first : (UInt8.ofNat (c.toNat / 64 / 64 / 64 % 0x08 + 0xf0)).toNat =
        c.toNat / 64 / 64 / 64 + 0xf0 := by
      rw [toNat_byte (by omega)]
      omega
    obtain ⟨low, high, lead, least, most⟩ : ∃ low high,
        lead? offset (c.toNat / 64 / 64 / 64 + 0xf0) =
          some (.inr ⟨offset, 2, low, high, c.toNat / 64 / 64 / 64⟩) ∧
        low ≤ c.toNat / 64 / 64 % 0x40 + 0x80 ∧ c.toNat / 64 / 64 % 0x40 + 0x80 ≤ high := by
      rw [lead?, if_neg (by omega), if_neg (by omega), if_neg (by omega), if_neg (by omega),
        if_pos (by omega), Nat.add_sub_cancel]
      refine ⟨_, _, rfl, ?_, ?_⟩ <;> split <;> omega
    rw [← first] at lead
    exact ⟨_, _, _, rfl, lead, .sixBits_more least most
      (.sixBits_more (by omega) (by omega) (.sixBits_last (by omega) (by omega)))⟩

/-! ## Texts -/

/-- A character is read back, whatever stands behind it. -/
theorem decodeFrom_encodeChar (c : Char) (offset : Nat) (bytes : List UInt8) :
    decodeFrom offset none (String.utf8EncodeChar c ++ bytes) =
      (decodeFrom (offset + (String.utf8EncodeChar c).length) none bytes).map (c :: ·) := by
  by_cases short : c.toNat ≤ 0x7f
  · have byte : (UInt8.ofNat c.toNat).toNat = c.toNat := toNat_byte (by omega)
    rw [encodeChar_eq, if_pos short, List.singleton_append, decodeFrom, byte, lead?,
      if_pos (by omega), Char.ofNat_toNat]
    rfl
  · obtain ⟨byte, b, tail, eq, lead, completed⟩ :=
      exists_completed_of_char c offset (Nat.lt_of_not_le short)
    rw [eq, List.cons_append, decodeFrom, lead]
    simp only
    rw [completed.decodeFrom, Char.ofNat_toNat, List.length_cons, Nat.add_assoc,
      Nat.add_comm 1]

theorem decodeFrom_encode (t : Text) (offset : Nat) :
    decodeFrom offset none (encode t) = .ok t := by
  induction t generalizing offset with
  | nil => rfl
  | cons c t ih =>
    show decodeFrom offset none (String.utf8EncodeChar c ++ encode t) = _
    rw [decodeFrom_encodeChar, ih]
    rfl

/-- What is read begins with a character whose bytes stand in front. -/
theorem exists_char_of_decodeFrom {offset : Nat} {byte : UInt8} {bytes : List UInt8} {t : Text}
    (h : decodeFrom offset none (byte :: bytes) = .ok t) :
    ∃ c u after rest, t = c :: u ∧ byte :: bytes = String.utf8EncodeChar c ++ rest ∧
      decodeFrom after none rest = .ok u := by
  rw [decodeFrom] at h
  split at h
  · cases h
  · next c lead =>
    have ascii : byte.toNat < 0x80 ∧ c = Char.ofNat byte.toNat := by
      unfold lead? at lead
      grind
    have valid : byte.toNat.isValidChar := .inl (by omega)
    cases rest : decodeFrom (offset + 1) none bytes with
    | error e => simp [rest, Except.map] at h
    | ok u =>
      rw [rest] at h
      cases h
      refine ⟨c, u, offset + 1, bytes, rfl, ?_, rest⟩
      rw [ascii.2, encodeChar_eq, toNat_ofNat_char valid, if_pos (by omega), UInt8.ofNat_toNat,
        List.singleton_append]
  · next b lead =>
    obtain ⟨tail, v, rest, u, rfl, completed, rfl, after⟩ := exists_completed h
    refine ⟨_, u, _, rest, rfl, ?_, after⟩
    rw [encodeChar_of_completed lead completed, List.cons_append]

theorem encode_of_decodeFrom {offset : Nat} {bytes : List UInt8} {t : Text}
    (h : decodeFrom offset none bytes = .ok t) : encode t = bytes := by
  induction t generalizing offset bytes with
  | nil =>
    cases bytes with
    | nil => rfl
    | cons byte bytes =>
      obtain ⟨_, _, _, _, impossible, _⟩ := exists_char_of_decodeFrom h
      cases impossible
  | cons c t ih =>
    cases bytes with
    | nil => cases h
    | cons byte bytes =>
      obtain ⟨_, _, _, rest, same, parts, after⟩ := exists_char_of_decodeFrom h
      cases same
      rw [parts, ← ih after]
      rfl

/-- Reading accepts exactly the bytes that spell a text, and gives that text. -/
theorem decode_eq_ok_iff {bytes : List UInt8} {t : Text} :
    decode bytes = .ok t ↔ encode t = bytes := by
  refine ⟨encode_of_decodeFrom, ?_⟩
  rintro rfl
  exact decodeFrom_encode t 0

end Lexis.Utf8
