import Manuscript.Archive.Content
import Mathlib.Data.List.Basic

/-!
# Reading streams

However a stream is read, with whatever room in the buffer, as many bytes are collected as are asked
for, or all of them.  The end of a stream, and with it the fault that may stand there, is seen
exactly if more bytes are asked for than there are.  So asking for one byte more than a limit allows
tells streams up to the limit from longer ones, and checks the former up to their end.
-/

namespace Manuscript.Archive

theorem asked_le (room n : Nat) : asked room n ≤ n :=
  Nat.min_le_left _ _

theorem asked_ne_zero {room n : Nat} (h : n ≠ 0) : asked room n ≠ 0 := by
  unfold asked readSize
  split_ifs <;> omega

namespace Stream

variable {n : Nat} {stream rest : Stream}

theorem read_eq_error_iff {fault : StreamFault} :
    stream.read n = .error fault ↔ stream.bytes = [] ∧ stream.fault = some fault := by
  unfold read
  split <;> rename_i hbytes
  · simp [hbytes]
  · split <;> rename_i hfault
    · simp [hbytes, hfault]
    · simp [hbytes, hfault]

theorem end_of_read (hn : n ≠ 0) (h : stream.read n = .ok ([], rest)) :
    stream.bytes = [] ∧ stream.fault = none := by
  unfold read at h
  split at h
  · next b bs hbytes =>
      rw [hbytes, Except.ok.injEq, Prod.mk.injEq, List.take_eq_nil_iff] at h
      simp [hn] at h
  · next hbytes =>
      split at h
      · cases h
      · next hfault => exact ⟨hbytes, hfault⟩

theorem eq_of_read {b : UInt8} {bs : Bytes} (h : stream.read n = .ok (b :: bs, rest)) :
    stream = ⟨(b :: bs) ++ rest.bytes, rest.fault⟩ ∧ (b :: bs).length ≤ n := by
  unfold read at h
  split at h
  · rw [Except.ok.injEq, Prod.mk.injEq] at h
    obtain ⟨hfront, rfl⟩ := h
    rw [← hfront]
    exact ⟨by simp, List.length_take_le _ _⟩
  · split at h <;> cases h

/-- The bytes that are collected do not depend on the room that the buffer has. -/
theorem collect_eq (room n : Nat) (stream : Stream) :
    stream.collect room n =
      if n ≤ stream.bytes.length then .ok (stream.bytes.take n)
      else
        match stream.fault with
        | some fault => .error fault
        | none => .ok stream.bytes := by
  fun_induction collect room n stream with
  | case1 => simp
  | case2 _ _ _ hn fault hread =>
      obtain ⟨hbytes, hfault⟩ := read_eq_error_iff.mp hread
      simp [hbytes, hfault, hn]
  | case3 _ _ _ hn _ hread =>
      obtain ⟨hbytes, hfault⟩ := end_of_read (asked_ne_zero hn) hread
      simp [hbytes, hfault, hn]
  | case4 room n _ hn b bs rest hread ih =>
      obtain ⟨rfl, hle⟩ := eq_of_read hread
      have hfront : (b :: bs).length ≤ n := Nat.le_trans hle (asked_le room n)
      have hlength : ((b :: bs) ++ rest.bytes).length = (b :: bs).length + rest.bytes.length :=
        List.length_append
      rw [← List.length_cons (a := b)] at ih ⊢
      rw [ih]
      by_cases hmore : n ≤ ((b :: bs) ++ rest.bytes).length
      · rw [if_pos hmore, if_pos (by omega), List.take_append, List.take_of_length_le hfront]
        rfl
      · rw [if_neg hmore, if_neg (by omega)]
        cases rest.fault <;> rfl

theorem readWithin_eq {limit : Nat} (h : limit < maxCollected ∨ stream.bytes.length < maxCollected)
    (room : Nat) : stream.readWithin room limit = stream.readAtMost limit := by
  rw [readWithin, readAtMost, collect_eq]
  by_cases hlong : limit < stream.bytes.length
  · have hmore : min (limit + 1) maxCollected ≤ stream.bytes.length := by omega
    have htaken : limit < (stream.bytes.take (min (limit + 1) maxCollected)).length := by
      rw [List.length_take]
      omega
    rw [if_pos hlong, if_pos hmore]
    simp only [if_pos htaken]
  · have hmore : ¬ min (limit + 1) maxCollected ≤ stream.bytes.length := by omega
    rw [if_neg hlong, if_neg hmore]
    cases stream.fault with
    | some fault => rfl
    | none => simp only [if_neg hlong]

end Stream

/-- An entry opens as what its packed bytes stand for, with its checksum to be checked at the end.
The size that the entry claims has no part in it. -/
theorem Entry.open_eq_ok [Codec] {bs : Bytes} {entry : Entry} {stream : Stream}
    (h : entry.open bs = .ok stream) :
    ∃ packed, entry.packed bs = .ok packed ∧
      stream = .ofUnpacked entry.checksum (entry.unpacked packed) := by
  unfold Entry.open at h
  split at h
  · cases h
  cases hpacked : entry.packed bs with
  | error fault =>
      rw [hpacked] at h
      cases h
  | ok packed =>
      simp only [hpacked, bind, Except.bind] at h
      split at h
      · cases h
      split at h
      · cases h
      exact ⟨packed, rfl, (Except.ok.inj h).symm⟩

end Manuscript.Archive
