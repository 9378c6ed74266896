import Manuscript.Base64
import Mathlib.Data.List.Basic

/-!
# Base 64 is read back

Every byte string has exactly one text in base 64, the one that is written: four characters for
every three bytes, where the last group is filled up.  Reading refuses all other texts.
-/

namespace Manuscript.Base64

theorem value?_char {n : Nat} (h : n < 64) : value? (char n) = some n := by
  revert n
  decide

example : (List.range 64).map char =
    "ABCDEFGHIJKLMNOPQRSTUVWXYZabcdefghijklmnopqrstuvwxyz0123456789+/".toList := by decide

theorem char_ne_equals {n : Nat} (h : n < 64) : char n ≠ '=' := by
  revert n
  decide

theorem char_of_value? {c : Char} {n : Nat} (h : value? c = some n) : n < 64 ∧ char n = c := by
  unfold value? at h
  split_ifs at h with hupper hlower hdigit hplus hslash <;> cases h
  · obtain ⟨hmin, hmax⟩ : 65 ≤ c.toNat ∧ c.toNat ≤ 90 := hupper
    rw [char, if_pos (by omega), Nat.add_sub_cancel' hmin, Char.ofNat_toNat]
    exact ⟨by omega, rfl⟩
  · obtain ⟨hmin, hmax⟩ : 97 ≤ c.toNat ∧ c.toNat ≤ 122 := hlower
    rw [char, if_neg (by omega), if_pos (by omega), Nat.add_sub_cancel' (by omega),
      Char.ofNat_toNat]
    exact ⟨by omega, rfl⟩
  · obtain ⟨hmin, hmax⟩ : 48 ≤ c.toNat ∧ c.toNat ≤ 57 := hdigit
    rw [char, if_neg (by omega), if_neg (by omega), if_pos (by omega), Nat.add_sub_cancel,
      Char.ofNat_toNat]
    exact ⟨by omega, rfl⟩
  · exact ⟨by decide, hplus.symm⟩
  · exact ⟨by decide, hslash.symm⟩

theorem decode?_one {x y : Nat} (hx : x < 64) (hy : y < 64) :
    decode? [char x, char y, '=', '='] =
      if y % 16 = 0 then some [UInt8.ofNat (x * 4 + y / 16)] else none := by
  simp [decode?, value?_char hx, value?_char hy]

theorem decode?_two {x y z : Nat} (hx : x < 64) (hy : y < 64) (hz : z < 64) :
    decode? [char x, char y, char z, '='] =
      if z % 4 = 0 then
        some [UInt8.ofNat (x * 4 + y / 16), UInt8.ofNat (y % 16 * 16 + z / 4)]
      else none := by
  simp [decode?, value?_char hx, value?_char hy, value?_char hz, char_ne_equals hz]

theorem decode?_three {x y z w : Nat} (hx : x < 64) (hy : y < 64) (hz : z < 64) (hw : w < 64)
    (cs : List Char) :
    decode? (char x :: char y :: char z :: char w :: cs) =
      (decode? cs).map fun bs =>
        UInt8.ofNat (x * 4 + y / 16) :: UInt8.ofNat (y % 16 * 16 + z / 4) ::
          UInt8.ofNat (z % 4 * 64 + w) :: bs := by
  rw [decode?]
  · simp only [value?_char hx, value?_char hy, value?_char hz, value?_char hw, Option.bind_eq_bind,
      Option.bind_some, Option.map_eq_bind]
    rfl
  · intro _ hequals _
    exact char_ne_equals hw hequals
  · intro hequals _
    exact char_ne_equals hw hequals

theorem ofNat_eq {n : Nat} {a : UInt8} (h : n = a.toNat) : UInt8.ofNat n = a := by
  rw [h, UInt8.ofNat_toNat]

theorem decode?_encode (bs : Bytes) : decode? (encode bs) = some bs := by
  fun_induction encode bs with
  | case1 => rfl
  | case2 a =>
      have ha := a.toNat_lt
      rw [decode?_one (by omega) (by omega), if_pos (by omega), ofNat_eq (a := a) (by omega)]
  | case3 a b =>
      have ha := a.toNat_lt
      have hb := b.toNat_lt
      rw [decode?_two (by omega) (by omega) (by omega), if_pos (by omega),
        ofNat_eq (a := a) (by omega), ofNat_eq (a := b) (by omega)]
  | case4 a b c bs ih =>
      have ha := a.toNat_lt
      have hb := b.toNat_lt
      have hc := c.toNat_lt
      rw [decode?_three (by omega) (by omega) (by omega) (by omega), ih, Option.map_some,
        ofNat_eq (a := a) (by omega), ofNat_eq (a := b) (by omega), ofNat_eq (a := c) (by omega)]

/-- The bits that are not used are zero, so nothing but what is written can be read. -/
theorem eq_encode_of_decode? {cs : List Char} {bs : Bytes} (h : decode? cs = some bs) :
    cs = encode bs := by
  have hsize : UInt8.size = 256 := rfl
  fun_induction decode? cs generalizing bs with
  | case1 =>
      cases h
      rfl
  | case2 a b =>
      simp only [Option.bind_eq_bind, Option.bind_eq_some_iff, Option.ite_none_right_eq_some,
        Option.some.injEq] at h
      obtain ⟨x, hx, y, hy, hzero, rfl⟩ := h
      obtain ⟨hx, rfl⟩ := char_of_value? hx
      obtain ⟨hy, rfl⟩ := char_of_value? hy
      have hfirst : (x * 4 + y / 16) / 4 = x := by omega
      have hsecond : (x * 4 + y / 16) % 4 * 16 = y := by omega
      rw [encode, UInt8.toNat_ofNat_of_lt' (by omega), hfirst, hsecond]
  | case3 a b c hc =>
      simp only [Option.bind_eq_bind, Option.bind_eq_some_iff, Option.ite_none_right_eq_some,
        Option.some.injEq] at h
      obtain ⟨x, hx, y, hy, z, hz, hzero, rfl⟩ := h
      obtain ⟨hx, rfl⟩ := char_of_value? hx
      obtain ⟨hy, rfl⟩ := char_of_value? hy
      obtain ⟨hz, rfl⟩ := char_of_value? hz
      have hfirst : (x * 4 + y / 16) / 4 = x := by omega
      have hsecond : (x * 4 + y / 16) % 4 * 16 + (y % 16 * 16 + z / 4) / 16 = y := by omega
      have hthird : (y % 16 * 16 + z / 4) % 16 * 4 = z := by omega
      rw [encode, UInt8.toNat_ofNat_of_lt' (by omega), UInt8.toNat_ofNat_of_lt' (by omega), hfirst,
        hsecond, hthird]
  | case4 a b c d cs _ _ ih =>
      simp only [Option.bind_eq_bind, Option.bind_eq_some_iff, Option.some.injEq] at h
      obtain ⟨x, hx, y, hy, z, hz, w, hw, tail, htail, rfl⟩ := h
      obtain ⟨hx, rfl⟩ := char_of_value? hx
      obtain ⟨hy, rfl⟩ := char_of_value? hy
      obtain ⟨hz, rfl⟩ := char_of_value? hz
      obtain ⟨hw, rfl⟩ := char_of_value? hw
      have hfirst : (x * 4 + y / 16) / 4 = x := by omega
      have hsecond : (x * 4 + y / 16) % 4 * 16 + (y % 16 * 16 + z / 4) / 16 = y := by omega
      have hthird : (y % 16 * 16 + z / 4) % 16 * 4 + (z % 4 * 64 + w) / 64 = z := by omega
      have hfourth : (z % 4 * 64 + w) % 64 = w := by omega
      rw [encode, UInt8.toNat_ofNat_of_lt' (by omega), UInt8.toNat_ofNat_of_lt' (by omega),
        UInt8.toNat_ofNat_of_lt' (by omega), hfirst, hsecond, hthird, hfourth, ih htail]
  | case5 => cases h

theorem decode?_eq_some_iff {cs : List Char} {bs : Bytes} :
    decode? cs = some bs ↔ cs = encode bs := by
  constructor
  · exact eq_encode_of_decode?
  · rintro rfl
    exact decode?_encode bs

theorem forall_mem_encode {p : Char → Prop} (hequals : p '=') (hchar : ∀ n < 64, p (char n))
    (bs : Bytes) : ∀ c ∈ encode bs, p c := by
  fun_induction encode bs with
  | case1 => simp
  | case2 a =>
      have ha := a.toNat_lt
      simp only [List.forall_mem_cons]
      exact ⟨hchar _ (by omega), hchar _ (by omega), hequals, hequals, by simp⟩
  | case3 a b =>
      have ha := a.toNat_lt
      have hb := b.toNat_lt
      simp only [List.forall_mem_cons]
      exact ⟨hchar _ (by omega), hchar _ (by omega), hchar _ (by omega), hequals, by simp⟩
  | case4 a b c bs ih =>
      have ha := a.toNat_lt
      have hb := b.toNat_lt
      have hc := c.toNat_lt
      simp only [List.forall_mem_cons]
      exact ⟨hchar _ (by omega), hchar _ (by omega), hchar _ (by omega), hchar _ (by omega), ih⟩

theorem encode_injective {bs bs' : Bytes} (h : encode bs = encode bs') : bs = bs' := by
  have hdecode := decode?_encode bs
  rw [h, decode?_encode bs'] at hdecode
  exact (Option.some.inj hdecode).symm

theorem length_encode (bs : Bytes) : (encode bs).length = (bs.length + 2) / 3 * 4 := by
  fun_induction encode bs with
  | case1 | case2 | case3 => simp
  | case4 a b c bs ih =>
      simp only [List.length_cons, ih]
      omega

end Manuscript.Base64
