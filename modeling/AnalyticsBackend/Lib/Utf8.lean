import Mathlib.Data.String.Basic

/-!
# UTF-8

Texts as bytes, and bytes as texts: a sequence that is not well formed reads as `U+FFFD`.
-/

namespace AnalyticsBackend.Lib

/-- The bytes of a text. -/
def utf8Bytes (text : List Char) : List UInt8 := text.flatMap String.utf8EncodeChar

/-- What a decoder waits for: so many more bytes, the next of them between two bounds. -/
structure Pending where
  needed : ℕ
  lower : ℕ
  upper : ℕ
  code : ℕ

def replacementCharacter : Char := Char.ofNat 0xFFFD

/-- A byte at the begin of a character. -/
def leadByte (b : ℕ) : Char ⊕ Pending :=
  if b ≤ 0x7F then .inl (Char.ofNat b)
  else if 0xC2 ≤ b ∧ b ≤ 0xDF then .inr ⟨1, 0x80, 0xBF, b - 0xC0⟩
  else if 0xE0 ≤ b ∧ b ≤ 0xEF then
    .inr ⟨2, if b = 0xE0 then 0xA0 else 0x80, if b = 0xED then 0x9F else 0xBF, b - 0xE0⟩
  else if 0xF0 ≤ b ∧ b ≤ 0xF4 then
    .inr ⟨3, if b = 0xF0 then 0x90 else 0x80, if b = 0xF4 then 0x8F else 0xBF, b - 0xF0⟩
  else .inl replacementCharacter

/-- The text of bytes. A byte that does not continue a character is read again as a first byte. -/
def decodeFrom : Option Pending → List UInt8 → List Char
  | none, [] => []
  | some _, [] => [replacementCharacter]
  | none, b :: rest =>
      match leadByte b.toNat with
      | .inl c => c :: decodeFrom none rest
      | .inr pending => decodeFrom (some pending) rest
  | some pending, b :: rest =>
      if pending.lower ≤ b.toNat ∧ b.toNat ≤ pending.upper then
        let code := 64 * pending.code + (b.toNat - 0x80)
        if pending.needed ≤ 1 then Char.ofNat code :: decodeFrom none rest
        else decodeFrom (some ⟨pending.needed - 1, 0x80, 0xBF, code⟩) rest
      else
        replacementCharacter ::
          match leadByte b.toNat with
          | .inl c => c :: decodeFrom none rest
          | .inr pending => decodeFrom (some pending) rest

def decodeUtf8 (bytes : List UInt8) : List Char := decodeFrom none bytes

/-- An ASCII text. -/
def IsAscii (text : List Char) : Prop := ∀ c ∈ text, c.toNat < 128

theorem utf8Bytes_ascii {text : List Char} (ascii : IsAscii text) :
    utf8Bytes text = text.map fun c => c.val.toUInt8 := by
  induction text with
  | nil => rfl
  | cons c rest ih =>
      obtain ⟨first, others⟩ := List.forall_mem_cons.mp ascii
      have size : c.utf8Size = 1 :=
        Char.utf8Size_eq_one_iff.mpr (UInt32.le_iff_toNat_le.mpr (Nat.le_of_lt_succ first))
      have tail := ih others
      rw [utf8Bytes] at tail ⊢
      rw [List.flatMap_cons, String.utf8EncodeChar_eq_singleton size, tail]
      rfl

theorem toNat_toUInt8 {c : Char} (ascii : c.toNat < 128) : c.val.toUInt8.toNat = c.toNat := by
  rw [UInt32.toNat_toUInt8]
  exact Nat.mod_eq_of_lt (by
    have : c.val.toNat = c.toNat := rfl
    omega)

/-- An ASCII text is read from its bytes. -/
theorem decodeUtf8_ascii {text : List Char} (ascii : IsAscii text) :
    decodeUtf8 (text.map fun c => c.val.toUInt8) = text := by
  unfold decodeUtf8
  induction text with
  | nil => rfl
  | cons c rest ih =>
      obtain ⟨first, others⟩ := List.forall_mem_cons.mp ascii
      have lead : leadByte c.val.toUInt8.toNat = .inl c := by
        rw [toNat_toUInt8 first, leadByte, if_pos (Nat.le_of_lt_succ first), Char.ofNat_toNat]
      rw [List.map_cons, decodeFrom, lead, ih others]

end AnalyticsBackend.Lib
