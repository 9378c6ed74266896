import Manuscript.Json.Skip
import Manuscript.Proofs.Json.Collection

/-!
# Objects are read back member by member

A reader that takes any value gives back a printed object as it was, with its members in their
order, if it gives back the value of each of them.
-/

namespace Manuscript.Json

theorem any_scalar {room : Nat} {pad : List Char} {c : Char} (hpad : IsBlank pad)
    (hspace : isSpace c = false) (harray : c ≠ '[') (hobject : c ≠ '\x7b') (cs : List Char) :
    Reader.any room (pad ++ c :: cs) = scalar (c :: cs) := by
  cases room with
  | zero => simp only [Reader.any, afterSpace_append hpad hspace]
  | succ room =>
      simp only [Reader.any, afterSpace_append hpad hspace]
      split
      · next heq => exact absurd (List.cons.inj heq).1 harray
      · next heq => exact absurd (List.cons.inj heq).1 hobject
      · rfl

namespace ReadsAs

theorem any_string (s : String) : ReadsAs 0 Reader.any (.string s) (.string s) := by
  constructor
  intro layout depth room pad rest _ hpad _
  have hbody := stringBody_of_spells (spells_escapeChars s.toList) rest
  rw [print, printString, List.cons_append, List.cons_append,
    any_scalar hpad rfl (by decide) (by decide), List.append_assoc, List.singleton_append]
  simp [scalar, found, hbody, bind, Except.bind]

theorem any_bool (b : Bool) : ReadsAs 0 Reader.any (.bool b) (.bool b) := by
  constructor
  intro layout depth room pad rest _ hpad _
  cases b with
  | false =>
      have hprint : print layout depth (.bool false) = ['f', 'a', 'l', 's', 'e'] := by
        simp [print]
      rw [hprint, List.cons_append, any_scalar hpad rfl (by decide) (by decide)]
      rfl
  | true =>
      have hprint : print layout depth (.bool true) = ['t', 'r', 'u', 'e'] := by
        simp [print]
      rw [hprint, List.cons_append, any_scalar hpad rfl (by decide) (by decide)]
      rfl

end ReadsAs

theorem entries_end {value : ValueScan Json} {first : Bool} {cs rest : List Char}
    (h : nextKey first cs = .ok (none, rest)) : entries value first cs = .ok ([], rest) := by
  rw [entries]
  split <;> rename_i heq <;> rw [h] at heq <;> cases heq
  rfl

theorem entries_cons {value : ValueScan Json} {first : Bool} {cs mid rest : List Char}
    {key : String} {v : Json} (hkey : nextKey first cs = .ok (some key, mid))
    (hvalue : (colon mid >>= value) = .ok (v, rest)) :
    entries value first cs = (do
      let (members, rest) ← entries value false rest
      .ok ((key, v) :: members, rest)) := by
  rw [entries]
  split <;> rename_i heq <;> rw [hkey] at heq <;> cases heq
  split <;> rename_i heq <;> rw [hvalue] at heq <;> cases heq
  rfl

theorem entries_member (layout : Layout) (depth : Nat) {levels room : Nat} {value : Json}
    (h : ReadsAs levels Reader.any value value) (hroom : levels ≤ room) {first : Bool}
    {lead after : List Char} (hlead : Leads first lead) (key : String)
    (hafter : EndsNumber after) :
    entries (Reader.any room) first (lead ++ (layout.newline depth ++ (printString key ++
        (layout.colon ++ (print layout depth value ++ after))))) = (do
      let (members, rest) ← entries (Reader.any room) false after
      .ok ((key, value) :: members, rest)) :=
  entries_cons (nextKey_name hlead (isBlank_newline layout depth) (isString_printString key) _)
    (colon_bind layout depth h hroom hafter)

theorem endsNumber_printMembers (layout : Layout) (depth : Nat) (members : List (String × Json))
    {rest : List Char} (hrest : EndsNumber rest) :
    EndsNumber (printMembers layout depth members ++ rest) := by
  cases members with
  | nil => exact hrest
  | cons member members => exact endsNumber_cons (.inl rfl) _

theorem entries_printed (layout : Layout) (depth outer : Nat) {levels room : Nat}
    {members : List (String × Json)} (hroom : levels ≤ room)
    (h : ∀ member ∈ members, ReadsAs levels Reader.any member.2 member.2) (rest : List Char) :
    entries (Reader.any room) false
        (printMembers layout depth members ++ (layout.newline outer ++ '\x7d' :: rest)) =
      .ok (members, '\x7d' :: rest) := by
  induction members with
  | nil => exact entries_end (nextKey_end false (isBlank_newline layout outer) rest)
  | cons member members ih =>
      have hafter := endsNumber_printMembers layout depth members
        (endsNumber_newline layout outer (.inr rfl) rest)
      have hall := entries_member layout depth (h member (by simp)) hroom (.next isBlank_nil)
        member.1 hafter
      rw [ih fun other hother => h other (by simp [hother])] at hall
      simpa [printMembers, bind, Except.bind] using hall

theorem entries_printed_first (layout : Layout) (depth : Nat) {levels room : Nat}
    {members : List (String × Json)} (hroom : levels ≤ room)
    (h : ∀ member ∈ members, ReadsAs levels Reader.any member.2 member.2) (rest : List Char) :
    ∃ inside, print layout depth (.object members) ++ rest = '\x7b' :: inside ∧
      entries (Reader.any room) true inside = .ok (members, '\x7d' :: rest) := by
  cases members with
  | nil => exact ⟨'\x7d' :: rest, rfl, entries_end (nextKey_end true isBlank_nil rest)⟩
  | cons member members =>
      have hafter := endsNumber_printMembers layout (depth + 1) members
        (endsNumber_newline layout depth (.inr rfl) rest)
      have hall := entries_member layout (depth + 1) (h member (by simp)) hroom .first member.1
        hafter
      rw [entries_printed layout (depth + 1) depth hroom
        (fun other hother => h other (by simp [hother])) rest] at hall
      exact ⟨_, by simp [print], hall⟩

theorem ReadsAs.any_object {levels : Nat} {members : List (String × Json)}
    (h : ∀ member ∈ members, ReadsAs levels Reader.any member.2 member.2) :
    ReadsAs (levels + 1) Reader.any (.object members) (.object members) := by
  constructor
  intro layout depth room pad rest hroom hpad _
  obtain ⟨inner, rfl⟩ : ∃ inner, room = inner + 1 := ⟨room - 1, by omega⟩
  have hopen : isSpace '\x7b' = false := rfl
  have hclose : endObject ('\x7d' :: rest) = .ok rest := rfl
  obtain ⟨inside, hprint, hinside⟩ :=
    entries_printed_first layout depth (by omega : levels ≤ inner) h rest
  simp only [hprint, Reader.any, afterSpace_append hpad hopen]
  simp [inObject, hinside, hclose, bind, Except.bind]

end Manuscript.Json
