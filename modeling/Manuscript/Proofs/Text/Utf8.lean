import Manuscript.Text.Utf8
import Mathlib.Data.String.Basic

/-!
# Decoding undoes encoding

The bytes of a character are the leading byte and the continuations that the decoder expects, so
the decoder takes exactly these bytes and gives the character back.
-/

namespace Manuscript.Utf8

@[simp] theorem toNat_continuation (n : Nat) : (continuation n).toNat = 0x80 + n % 64 := by
  have hsize : UInt8.size = 256 := rfl
  exact UInt8.toNat_ofNat_of_lt' (by omega)

@[simp] theorem isContinuation_continuation (n : Nat) : isContinuation (continuation n) := by
  simp only [isContinuation, toNat_continuation, Bool.and_eq_true, decide_eq_true_eq]
  omega

theorem isSecond_continuation {lead n : Nat}
    (hE0 : lead = 0xE0 → 0x20 ≤ n % 64)
    (hED : lead = 0xED → n % 64 < 0x20) (hF0 : lead = 0xF0 → 0x10 ≤ n % 64)
    (hF4 : lead = 0xF4 → n % 64 < 0x10) : isSecond lead (continuation n) := by
  simp only [isSecond, secondRange, toNat_continuation]
  split_ifs with h₁ h₂ h₃ h₄ <;> simp only [beq_iff_eq] at * <;>
    simp only [Bool.and_eq_true, decide_eq_true_eq] <;> omega

section

variable {b b₁ b₂ b₃ : UInt8} (before : Nat) (bs : Bytes)

theorem decodeFrom_one (hlead : b.toNat < 0x80) :
    decodeFrom before (b :: bs) = (Char.ofNat b.toNat :: ·) <$> decodeFrom (before + 1) bs := by
  rw [decodeFrom.eq_def]
  simp [hlead]

theorem decodeFrom_two (hlow : 0xC2 ≤ b.toNat) (hhigh : b.toNat < 0xE0)
    (hsecond : isSecond b.toNat b₁) :
    decodeFrom before (b :: b₁ :: bs) =
      (Char.ofNat (b.toNat % 32 * 64 + b₁.toNat % 64) :: ·) <$> decodeFrom (before + 2) bs := by
  rw [decodeFrom.eq_def]
  have hone : ¬ b.toNat < 0x80 := by omega
  have hmany : ¬ b.toNat < 0xC2 ∧ ¬ 0xF4 < b.toNat := by omega
  simp [hone, hmany, hsecond, hhigh]

theorem decodeFrom_three (hlow : 0xE0 ≤ b.toNat) (hhigh : b.toNat < 0xF0)
    (hsecond : isSecond b.toNat b₁) (hthird : isContinuation b₂) :
    decodeFrom before (b :: b₁ :: b₂ :: bs) =
      (Char.ofNat (b.toNat % 16 * 4096 + (b₁.toNat % 64 * 64 + b₂.toNat % 64)) :: ·) <$>
        decodeFrom (before + 3) bs := by
  rw [decodeFrom.eq_def]
  have hone : ¬ b.toNat < 0x80 := by omega
  have hmany : ¬ b.toNat < 0xC2 ∧ ¬ 0xF4 < b.toNat := by omega
  have htwo : ¬ b.toNat < 0xE0 := by omega
  simp [hone, hmany, hsecond, htwo, hthird, hhigh]

theorem decodeFrom_four (hlow : 0xF0 ≤ b.toNat) (hhigh : b.toNat ≤ 0xF4)
    (hsecond : isSecond b.toNat b₁) (hthird : isContinuation b₂) (hfourth : isContinuation b₃) :
    decodeFrom before (b :: b₁ :: b₂ :: b₃ :: bs) =
      (Char.ofNat (b.toNat % 8 * 262144 + (b₁.toNat % 64 * 64 + b₂.toNat % 64) * 64 +
        b₃.toNat % 64) :: ·) <$> decodeFrom (before + 4) bs := by
  rw [decodeFrom.eq_def]
  have hone : ¬ b.toNat < 0x80 := by omega
  have hmany : ¬ b.toNat < 0xC2 ∧ ¬ 0xF4 < b.toNat := by omega
  have htwo : ¬ b.toNat < 0xE0 := by omega
  have hthree : ¬ b.toNat < 0xF0 := by omega
  simp [hone, hmany, hsecond, htwo, hthird, hthree, hfourth]

end

theorem decodeFrom_encodeChar (before : Nat) (c : Char) (rest : Bytes) :
    decodeFrom before (encodeChar c ++ rest) =
      (c :: ·) <$> decodeFrom (before + (encodeChar c).length) rest := by
  have hchar : ∀ n, n = c.toNat → Char.ofNat n = c := by
    rintro n rfl
    exact Char.ofNat_toNat c
  have hvalid : c.toNat < 0xD800 ∨ 0xDFFF < c.toNat ∧ c.toNat < 0x110000 := c.valid
  have hsize : UInt8.size = 256 := rfl
  simp only [encodeChar]
  split_ifs with h₁ h₂ h₃
  · have hlead : (UInt8.ofNat c.toNat).toNat = c.toNat :=
      UInt8.toNat_ofNat_of_lt' (by omega)
    rw [List.singleton_append, decodeFrom_one _ _ (by omega), hchar _ hlead]
    rfl
  · have hlead : (UInt8.ofNat (0xC0 + c.toNat / 64)).toNat = 0xC0 + c.toNat / 64 :=
      UInt8.toNat_ofNat_of_lt' (by omega)
    simp only [List.cons_append, List.nil_append]
    rw [decodeFrom_two _ _ (by omega) (by omega), hchar]
    · rfl
    · rw [hlead, toNat_continuation]
      omega
    · rw [hlead]
      apply isSecond_continuation <;> omega
  · have hlead : (UInt8.ofNat (0xE0 + c.toNat / 4096)).toNat = 0xE0 + c.toNat / 4096 :=
      UInt8.toNat_ofNat_of_lt' (by omega)
    simp only [List.cons_append, List.nil_append]
    rw [decodeFrom_three _ _ (by omega) (by omega) _ (isContinuation_continuation _), hchar]
    · rfl
    · simp only [hlead, toNat_continuation]
      omega
    · rw [hlead]
      apply isSecond_continuation <;> omega
  · have hlead : (UInt8.ofNat (0xF0 + c.toNat / 262144)).toNat = 0xF0 + c.toNat / 262144 :=
      UInt8.toNat_ofNat_of_lt' (by omega)
    simp only [List.cons_append, List.nil_append]
    rw [decodeFrom_four _ _ (by omega) (by omega) _ (isContinuation_continuation _)
      (isContinuation_continuation _), hchar]
    · rfl
    · simp only [hlead, toNat_continuation]
      omega
    · rw [hlead]
      apply isSecond_continuation <;> omega

theorem decodeFrom_encode (before : Nat) (cs : List Char) :
    decodeFrom before (encode cs) = .ok cs := by
  induction cs generalizing before with
  | nil => rfl
  | cons c cs ih =>
      rw [encode, List.flatMap_cons, decodeFrom_encodeChar]
      exact congrArg _ (ih _)

theorem decode_bytes (s : String) : decode (bytes s) = .ok s := by
  rw [decode, bytes, decodeFrom_encode]
  simp

theorem length_encodeChar (c : Char) : (encodeChar c).length = c.utf8Size := by
  have hval : c.val.toNat = c.toNat := rfl
  simp only [encodeChar, Char.utf8Size, UInt32.le_iff_toNat_le, hval]
  split_ifs <;> simp_all <;> omega

theorem length_le_size (cs : List Char) : cs.length ≤ size cs := by
  induction cs with
  | nil => exact Nat.le_refl _
  | cons c cs ih =>
      have hwidth : 1 ≤ width c := by
        unfold width
        split_ifs <;> decide
      have hcons : size (c :: cs) = width c + size cs := rfl
      rw [hcons, List.length_cons]
      omega

theorem length_encode (cs : List Char) : (encode cs).length = String.utf8Len cs := by
  induction cs with
  | nil => rfl
  | cons c cs ih =>
      rw [encode, List.flatMap_cons, List.length_append, length_encodeChar, String.utf8Len_cons,
        ← ih, encode]
      omega

theorem width_eq (c : Char) : width c = c.utf8Size := by
  have hval : c.val.toNat = c.toNat := rfl
  simp only [width, Char.utf8Size, UInt32.le_iff_toNat_le, hval]
  split_ifs <;> simp_all <;> omega

theorem size_eq (cs : List Char) : size cs = String.utf8Len cs := by
  induction cs with
  | nil => rfl
  | cons c cs ih =>
      have hcons : size (c :: cs) = width c + size cs := rfl
      rw [hcons, width_eq, ih, String.utf8Len_cons, Nat.add_comm]

theorem length_bytes (s : String) : (bytes s).length = s.utf8ByteSize := by
  rw [bytes, length_encode, String.utf8Len_toList]

end Manuscript.Utf8
