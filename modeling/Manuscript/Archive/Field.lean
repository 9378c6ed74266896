import Manuscript.Text.Utf8
/-!
# Fields of records

Numbers in the records of an archive have a fixed number of bytes, the lowest first.
-/

namespace Manuscript.Archive

def littleEndian : Nat → Nat → Bytes
  | 0, _ => []
  | k + 1, n => UInt8.ofNat n :: littleEndian k (n / 256)

@[simp] theorem length_littleEndian (k n : Nat) : (littleEndian k n).length = k := by
  induction k generalizing n with
  | zero => rfl
  | succ k ih => simp [littleEndian, ih]

def number? : Nat → Bytes → Option (Nat × Bytes)
  | 0, bs => some (0, bs)
  | _ + 1, [] => none
  | k + 1, b :: bs => do
    let (n, rest) ← number? k bs
    some (b.toNat + 256 * n, rest)

theorem length_number? {k n : Nat} {bs rest : Bytes} (h : number? k bs = some (n, rest)) :
    rest.length + k = bs.length := by
  induction k generalizing n bs rest with
  | zero => cases h; rfl
  | succ k ih =>
    cases bs with
    | nil => cases h
    | cons b bs =>
      obtain ⟨⟨_, _⟩, hn, h⟩ := Option.bind_eq_some_iff.1 h
      cases h
      exact congrArg Nat.succ (ih hn)

def bytes? (k : Nat) (bs : Bytes) : Option (Bytes × Bytes) :=
  if k ≤ bs.length then some (bs.take k, bs.drop k) else none

theorem length_bytes? {k : Nat} {bs taken rest : Bytes} (h : bytes? k bs = some (taken, rest)) :
    rest.length + k = bs.length := by
  unfold bytes? at h
  split at h
  · cases h
    simp only [List.length_drop]
    omega
  · cases h

def expect? (head bs : Bytes) : Option Bytes :=
  if head.isPrefixOf bs then some (bs.drop head.length) else none

def places (mark : Bytes) (start : Nat) : Bytes → List Nat
  | [] => []
  | b :: bs =>
    if mark.isPrefixOf (b :: bs) then start :: places mark (start + 1) bs
    else places mark (start + 1) bs

end Manuscript.Archive
