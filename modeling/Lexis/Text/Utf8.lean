import Lexis.Text.Basic

/-!
# Texts in files

Reading a text from its bytes, and writing it. A byte sequence that is not well formed is refused
at the first byte of the character it fails to spell. The second byte of a character is held to a
narrower range after some first bytes; this rules out overlong forms, surrogates and values past
U+10FFFF.

Files end their lines with a line feed, a carriage return, or the pair of both. A text that is read
knows line feeds only.

Results:
1. `Text.not_mem_unifyNewlines`: no carriage return is left.
-/

namespace Lexis.Utf8

/-- What is wrong with a sequence of bytes: no character begins with the byte, the byte cannot
continue the character begun before it, or the bytes end inside a character. -/
inductive Defect
  | start
  | continuation
  | truncated
deriving DecidableEq, Repr

def Defect.text : Defect → Text
  | .start => "invalid start byte".toList
  | .continuation => "invalid continuation byte".toList
  | .truncated => "unexpected end of data".toList

structure Refusal where
  defect : Defect
  /-- The offset of the first byte of the character at fault. -/
  offset : Nat
deriving DecidableEq, Repr

/-- A character of which the first bytes have been read: the offset of the first, the number of
those still to come, less one, the range of the next, and the value of the bits read. -/
structure Begun where
  offset : Nat
  further : Nat
  low : Nat
  high : Nat
  value : Nat

/-- What a byte at the start of a character says: a character of its own, or the beginning of a
longer one. -/
def lead? (offset byte : Nat) : Option (Char ⊕ Begun) :=
  if byte < 0x80 then some (.inl (Char.ofNat byte))
  else if byte < 0xc2 then none
  else if byte < 0xe0 then some (.inr ⟨offset, 0, 0x80, 0xbf, byte - 0xc0⟩)
  else if byte < 0xf0 then
    some (.inr ⟨offset, 1, if byte = 0xe0 then 0xa0 else 0x80, if byte = 0xed then 0x9f else 0xbf,
      byte - 0xe0⟩)
  else if byte < 0xf5 then
    some (.inr ⟨offset, 2, if byte = 0xf0 then 0x90 else 0x80, if byte = 0xf4 then 0x8f else 0xbf,
      byte - 0xf0⟩)
  else none

/-- Reads bytes from `offset` on, in the middle of the character `begun` if there is one. -/
def decodeFrom (offset : Nat) (begun : Option Begun) : List UInt8 → Except Refusal Text
  | [] =>
    match begun with
    | none => .ok []
    | some b => .error ⟨.truncated, b.offset⟩
  | byte :: bytes =>
    match begun with
    | none =>
      match lead? offset byte.toNat with
      | none => .error ⟨.start, offset⟩
      | some (.inl c) => (decodeFrom (offset + 1) none bytes).map (c :: ·)
      | some (.inr b) => decodeFrom (offset + 1) (some b) bytes
    | some b =>
      if b.low ≤ byte.toNat ∧ byte.toNat ≤ b.high then
        let value := b.value * 64 + (byte.toNat - 0x80)
        match b.further with
        | 0 => (decodeFrom (offset + 1) none bytes).map (Char.ofNat value :: ·)
        | further + 1 =>
          decodeFrom (offset + 1) (some ⟨b.offset, further, 0x80, 0xbf, value⟩) bytes
      else .error ⟨.continuation, b.offset⟩

/-- The text that the bytes spell. -/
def decode (bytes : List UInt8) : Except Refusal Text :=
  decodeFrom 0 none bytes

def encode (t : Text) : List UInt8 :=
  t.flatMap String.utf8EncodeChar

end Lexis.Utf8

namespace Lexis.Text

/-- Each carriage return, with the line feed that follows it if there is one, becomes a line
feed. -/
def unifyNewlines : Text → Text
  | [] => []
  | '\r' :: '\n' :: t => '\n' :: unifyNewlines t
  | c :: t => (if c = '\r' then '\n' else c) :: unifyNewlines t

theorem not_mem_unifyNewlines (t : Text) : '\r' ∉ unifyNewlines t := by
  fun_induction unifyNewlines t with
  | case1 => simp
  | case2 t ih => simp [ih]
  | case3 c t _ ih =>
    by_cases h : c = '\r'
    · simp [h, ih]
    · simp [h, ih, Ne.symm h]

end Lexis.Text
