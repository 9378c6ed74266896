import Manuscript.Text.Decimal
import Mathlib.Data.List.Basic
import Mathlib.Tactic.Ring

/-!
# Written numbers are read back

The decimal digits of a number spell it, also after digits that come before them, so numbers that
are written alike are equal.
-/

namespace Manuscript.Text

theorem decimalValue?_digit {d : Nat} (h : d < 10) : decimalValue? (digit d) = some d := by
  revert d
  decide

theorem toNat_of_isSome_decimalValue? {c : Char} (h : (decimalValue? c).isSome = true) :
    48 ≤ c.toNat ∧ c.toNat ≤ 57 := by
  unfold decimalValue? at h
  split at h
  · next hc => exact hc
  · cases h

theorem toNat_of_isSome_hexadecimalValue? {c : Char} (h : (hexadecimalValue? c).isSome = true) :
    48 ≤ c.toNat ∧ c.toNat ≤ 57 ∨ 97 ≤ c.toNat ∧ c.toNat ≤ 102 ∨ 65 ≤ c.toNat ∧ c.toNat ≤ 70 := by
  unfold hexadecimalValue? at h
  split at h
  · next hc => exact .inl hc
  split at h
  · next hc => exact .inr (.inl hc)
  split at h
  · next hc => exact .inr (.inr hc)
  · cases h

theorem decimal_of_lt {n : Nat} (h : n < 10) : decimal n = [digit n] := by
  rw [decimal, digits, if_pos h]

theorem decimal_of_le {n : Nat} (h : 10 ≤ n) :
    decimal n = decimal (n / 10) ++ [digit (n % 10)] := by
  rw [decimal, digits, if_neg (by omega)]
  rfl

theorem isSome_of_mem_decimal {n : Nat} {c : Char} (h : c ∈ decimal n) :
    (decimalValue? c).isSome = true := by
  induction n using Nat.strong_induction_on with
  | _ n ih =>
      by_cases hn : n < 10
      · rw [decimal_of_lt hn, List.mem_singleton] at h
        rw [h, decimalValue?_digit hn]
        rfl
      · rw [decimal_of_le (by omega), List.mem_append, List.mem_singleton] at h
        rcases h with h | rfl
        · exact ih (n / 10) (by omega) h
        · rw [decimalValue?_digit (by omega)]
          rfl

theorem decimal_ne_nil (n : Nat) : decimal n ≠ [] := by
  by_cases hn : n < 10
  · simp [decimal_of_lt hn]
  · simp [decimal_of_le (by omega : 10 ≤ n)]

theorem decimal_eq_cons {n : Nat} (h : 0 < n) :
    ∃ d cs, decimal n = digit d :: cs ∧ 0 < d ∧ d < 10 := by
  induction n using Nat.strong_induction_on with
  | _ n ih =>
      by_cases hn : n < 10
      · exact ⟨n, [], decimal_of_lt hn, h, hn⟩
      · obtain ⟨d, cs, hfront, hd⟩ := ih (n / 10) (by omega) (by omega)
        exact ⟨d, cs ++ [digit (n % 10)], by rw [decimal_of_le (by omega), hfront]; rfl, hd⟩

def spelledAfter (n : Nat) (cs : List Char) : Nat :=
  cs.foldl (fun n c => n * 10 + (decimalValue? c).getD 0) n

theorem spelledAfter_decimal (n m : Nat) :
    spelledAfter n (decimal m) = n * 10 ^ (decimal m).length + m := by
  induction m using Nat.strong_induction_on with
  | _ m ih =>
      by_cases hm : m < 10
      · simp [decimal_of_lt hm, spelledAfter, decimalValue?_digit hm]
      · have hfront := ih (m / 10) (by omega)
        have hlast : spelledAfter n (decimal m) =
            spelledAfter n (decimal (m / 10)) * 10 + m % 10 := by
          rw [decimal_of_le (by omega)]
          simp [spelledAfter, decimalValue?_digit (by omega : m % 10 < 10)]
        have hlength : (decimal m).length = (decimal (m / 10)).length + 1 := by
          rw [decimal_of_le (by omega)]
          simp
        calc spelledAfter n (decimal m)
            _ = (n * 10 ^ (decimal (m / 10)).length + m / 10) * 10 + m % 10 := by rw [hlast, hfront]
            _ = n * 10 ^ (decimal m).length + (m / 10 * 10 + m % 10) := by rw [hlength]; ring
            _ = n * 10 ^ (decimal m).length + m := by rw [Nat.div_add_mod']

theorem spelledAfter_cons {n d : Nat} {c : Char} (hc : decimalValue? c = some d)
    (cs : List Char) : spelledAfter n (c :: cs) = spelledAfter (n * 10 + d) cs := by
  simp [spelledAfter, hc]

theorem le_spelledAfter (n : Nat) (cs : List Char) : n ≤ spelledAfter n cs := by
  induction cs generalizing n with
  | nil => exact Nat.le_refl n
  | cons c cs ih =>
      have htail := ih (n * 10 + (decimalValue? c).getD 0)
      have hcons : spelledAfter n (c :: cs) =
          spelledAfter (n * 10 + (decimalValue? c).getD 0) cs := rfl
      omega

theorem decimal_injective : Function.Injective decimal := by
  intro n m h
  have hn := spelledAfter_decimal 0 n
  rw [h, spelledAfter_decimal] at hn
  simpa using hn.symm

theorem showNat_injective : Function.Injective showNat := fun _ _ h =>
  decimal_injective (String.ofList_injective h)

end Manuscript.Text
