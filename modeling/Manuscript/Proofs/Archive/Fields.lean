import Manuscript.Archive.Field
import Mathlib

/-!
# Reading back fields

A field that stands at the front of a byte string is read back, and what follows it is left.  The
places of a mark are split wherever the byte string is.
-/

namespace Manuscript.Archive

theorem number?_littleEndian (k n : Nat) (rest : Bytes) :
    number? k (littleEndian k n ++ rest) = some (n % 256 ^ k, rest) := by
  induction k generalizing n with
  | zero => simp [number?, littleEndian, Nat.mod_one]
  | succ k ih =>
      have hdigits : n % 256 ^ (k + 1) = n % 256 + 256 * (n / 256 % 256 ^ k) := by
        rw [Nat.pow_succ', Nat.mod_mul]
      simp [number?, littleEndian, ih, hdigits]

@[simp] theorem bytes?_append (taken rest : Bytes) :
    bytes? taken.length (taken ++ rest) = some (taken, rest) := by
  simp [bytes?]

@[simp] theorem bytes?_zero (bs : Bytes) : bytes? 0 bs = some ([], bs) := by
  simp [bytes?]

theorem bytes?_of_length {k : Nat} {taken : Bytes} (h : taken.length = k) (rest : Bytes) :
    bytes? k (taken ++ rest) = some (taken, rest) := by
  rw [← h, bytes?_append]

@[simp] theorem expect?_append (head bs : Bytes) : expect? head (head ++ bs) = some bs := by
  simp [expect?]

theorem length_of_expect? {head bs rest : Bytes} (h : expect? head bs = some rest) :
    rest.length + head.length = bs.length := by
  unfold expect? at h
  split at h
  · rename_i hhead
    have hle := (List.isPrefixOf_iff_prefix.mp hhead).length_le
    obtain rfl := Option.some.inj h
    simp only [List.length_drop]
    omega
  · simp at h

section

variable {α : Type}

theorem number?_bind (k n : Nat) (rest : Bytes) (next : Nat × Bytes → Option α) :
    (number? k (littleEndian k n ++ rest) >>= next) = next (n % 256 ^ k, rest) := by
  rw [number?_littleEndian]
  rfl

theorem expect?_bind (head bs : Bytes) (next : Bytes → Option α) :
    (expect? head (head ++ bs) >>= next) = next bs := by
  rw [expect?_append]
  rfl

end

theorem places_append (mark : Bytes) (start : Nat) (front bs : Bytes) :
    ∃ earlier, places mark start (front ++ bs) =
      earlier ++ places mark (start + front.length) bs := by
  induction front generalizing start with
  | nil => exact ⟨[], rfl⟩
  | cons b front ih =>
      obtain ⟨earlier, hearlier⟩ := ih (start + 1)
      have hstart : start + (b :: front).length = start + 1 + front.length := by
        simp only [List.length_cons]
        omega
      rw [hstart, List.cons_append, places, hearlier]
      split
      · exact ⟨start :: earlier, rfl⟩
      · exact ⟨earlier, rfl⟩

theorem le_of_mem_places {mark bs : Bytes} {start position : Nat}
    (h : position ∈ places mark start bs) : start ≤ position := by
  induction bs generalizing start with
  | nil => simp [places] at h
  | cons b bs ih =>
      rw [places] at h
      split at h
      · rcases List.mem_cons.mp h with rfl | h
        · exact Nat.le_refl _
        · exact Nat.le_of_succ_le (ih h)
      · exact Nat.le_of_succ_le (ih h)

theorem places_of_marked {mark : Bytes} (hmark : mark ≠ []) (start : Nat) (bs : Bytes) :
    ∃ later, places mark start (mark ++ bs) = start :: later ∧
      ∀ position ∈ later, start < position := by
  obtain ⟨b, tail, rfl⟩ := List.exists_cons_of_ne_nil hmark
  refine ⟨places (b :: tail) (start + 1) (tail ++ bs), ?_, fun position => le_of_mem_places⟩
  rw [List.cons_append, places, if_pos]
  simp

end Manuscript.Archive
