import Manuscript.Proofs.Json.Members
import Mathlib.Data.List.Forall2
import Mathlib.Data.List.Nodup

/-!
# Objects with their members in any order

An object is described by the entries that it may have: which of them are given, and how their
values may be written.  Reading it does not depend on the order of its members, nor on members with
other names, if the drafts on the way are known by the names that have been read.
-/

namespace Manuscript.Json

variable {α δ : Type}

/-- A member that an object may have: whether it is given, and how its value may be written. -/
structure Entry where
  name : String
  given : Bool
  Fits : List Char → Prop

structure Entry.IsGivenBy (entry : Entry) (member : String × List Char) : Prop where
  name : member.1 = entry.name
  fits : entry.Fits member.2

/-- The text of an object that has the entries that are given, in any order, and members with other
names besides. -/
inductive Presents (entries : List Entry) : List Char → Prop
  | intro {members known others : List (String × List Char)} {text : List Char}
      (hobject : IsObject members text) (horder : members.Perm (known ++ others))
      (hknown : List.Forall₂ Entry.IsGivenBy (entries.filter (·.given)) known)
      (hothers : ∀ member ∈ others, member.1 ∉ entries.map Entry.name ∧ IsValue member.2) :
      Presents entries text

theorem map_fst_of_isGivenBy {entries : List Entry} {members : List (String × List Char)}
    (h : List.Forall₂ Entry.IsGivenBy entries members) :
    members.map Prod.fst = entries.map Entry.name := by
  induction h with
  | nil => rfl
  | cons hmember _ ih => rw [List.map_cons, List.map_cons, hmember.name, ih]

theorem exists_isGivenBy {entries : List Entry} {members : List (String × List Char)}
    (h : List.Forall₂ Entry.IsGivenBy entries members) {member : String × List Char}
    (hmember : member ∈ members) : ∃ entry ∈ entries, entry.IsGivenBy member := by
  induction h with
  | nil => cases hmember
  | @cons entry first _ _ hfirst _ ih =>
      rcases List.mem_cons.mp hmember with rfl | hmember
      · exact ⟨entry, by simp, hfirst⟩
      · obtain ⟨other, hother, hgiven⟩ := ih hmember
        exact ⟨other, by simp [hother], hgiven⟩

section

variable {entries : List Entry} {members known others : List (String × List Char)}

theorem isGivenBy_or_other (horder : members.Perm (known ++ others))
    (hknown : List.Forall₂ Entry.IsGivenBy (entries.filter (·.given)) known)
    (hothers : ∀ member ∈ others, member.1 ∉ entries.map Entry.name ∧ IsValue member.2)
    {member : String × List Char} (hmember : member ∈ members) :
    (∃ entry ∈ entries, entry.given = true ∧ entry.IsGivenBy member) ∨
      member.1 ∉ entries.map Entry.name ∧ IsValue member.2 := by
  rcases List.mem_append.mp (horder.mem_iff.mp hmember) with hmem | hmem
  · obtain ⟨entry, hentry, hgiven⟩ := exists_isGivenBy hknown hmem
    obtain ⟨hentry, hflag⟩ := List.mem_filter.mp hentry
    exact .inl ⟨entry, hentry, hflag, hgiven⟩
  · exact .inr (hothers member hmem)

theorem count_members_name (horder : members.Perm (known ++ others))
    (hknown : List.Forall₂ Entry.IsGivenBy (entries.filter (·.given)) known)
    (hothers : ∀ member ∈ others, member.1 ∉ entries.map Entry.name)
    {name : String} (hname : name ∈ entries.map Entry.name) :
    (members.map Prod.fst).count name =
      ((entries.filter (·.given)).map Entry.name).count name := by
  have hnone : (others.map Prod.fst).count name = 0 := by
    rw [List.count_eq_zero]
    intro hmem
    obtain ⟨member, hmember, rfl⟩ := List.mem_map.mp hmem
    exact hothers member hmember hname
  rw [(horder.map Prod.fst).count_eq, List.map_append, List.count_append, hnone,
    map_fst_of_isGivenBy hknown, Nat.add_zero]

end

namespace Shape

theorem takesMember_of {fields : List (Field δ)} {room : Nat} {draft : δ} {name : String}
    {get : δ → Option α} {set : α → δ → δ} {read : Reader α} {text : List Char}
    {outcome : Except Reason α} {result : Except Reason δ}
    (hfind : fields.find? (fun field => field.name == name) = some (.of name get set read))
    (hempty : get draft = none) (hread : ReadsText (read room) text outcome)
    (hresult : (outcome.map fun a => set a draft) = result) :
    TakesMember fields room draft (name, text) result := by
  have hmissing : (Field.of name get set read).isFilled draft = false := by
    simp [Field.of, hempty]
  have hmember := takesMember_field hfind hmissing (hread.map set)
  rw [← hresult]
  cases outcome <;> exact hmember

/-- The drafts that the entries of an object lead to are known by the names that have been read.
`refused` tells for which names the value is refused, and why. -/
structure Tracks (fields : List (Field δ)) (room : Nat) (entries : List Entry)
    (draftOf : List String → δ) (refused : String → Option Reason) : Prop where
  names : fields.map Field.name = entries.map Entry.name
  nodup : (entries.map Entry.name).Nodup
  same {seen other : List String} :
    (∀ name ∈ entries.map Entry.name, name ∈ seen ↔ name ∈ other) → draftOf seen = draftOf other
  others {key : String} : key ∉ entries.map Entry.name → refused key = none
  takes {entry : Entry} {text : List Char} {seen : List String} : entry ∈ entries →
    entry.Fits text → entry.name ∉ seen →
      TakesMember fields room (draftOf seen) (entry.name, text)
        ((refused entry.name).elim (.ok (draftOf (entry.name :: seen))) .error)

namespace Tracks

variable {fields : List (Field δ)} {room : Nat} {entries : List Entry}
  {draftOf : List String → δ} {refused : String → Option Reason}

theorem takes_other (h : Tracks fields room entries draftOf refused)
    {member : String × List Char} (hname : member.1 ∉ entries.map Entry.name)
    (hvalue : IsValue member.2) (seen : List String) :
    TakesMember fields room (draftOf seen) member
      ((refused member.1).elim (.ok (draftOf (member.1 :: seen))) .error) := by
  have hfind : fields.find? (fun field => field.name == member.1) = none := by
    rw [List.find?_eq_none]
    intro field hfield heq
    have hmem : field.name ∈ entries.map Entry.name := by
      rw [← h.names]
      exact List.mem_map_of_mem hfield
    exact hname (eq_of_beq heq ▸ hmem)
  have hdraft : draftOf (member.1 :: seen) = draftOf seen := by
    apply h.same
    intro name hmem
    have hne : name ≠ member.1 := fun heq => hname (heq ▸ hmem)
    simp [hne]
  rw [h.others hname, Option.elim_none, hdraft]
  exact takesMember_other hfind hvalue

/-- If every name is new when its member comes, the members are taken up to the first value that is
refused. -/
theorem takes_members (h : Tracks fields room entries draftOf refused)
    {members : List (String × List Char)}
    (hmembers : ∀ member ∈ members,
      (∃ entry ∈ entries, entry.IsGivenBy member) ∨
        member.1 ∉ entries.map Entry.name ∧ IsValue member.2)
    {seen : List String}
    (honce : ∀ name ∈ entries.map Entry.name, (members.map Prod.fst ++ seen).count name ≤ 1) :
    Takes fields room (draftOf seen) members
      ((members.findSome? fun member => refused member.1).elim
        (.ok (draftOf ((members.map Prod.fst).reverse ++ seen))) .error) := by
  induction members generalizing seen with
  | nil => exact .nil _
  | cons member members ih =>
      have htakes : TakesMember fields room (draftOf seen) member
          ((refused member.1).elim (.ok (draftOf (member.1 :: seen))) .error) := by
        rcases hmembers member (by simp) with ⟨entry, hentry, hgiven⟩ | ⟨hname, hvalue⟩
        · have hfresh : entry.name ∉ seen := by
            intro hseen
            have hcount := honce entry.name (List.mem_map_of_mem hentry)
            have hpos := List.count_pos_iff.mpr hseen
            simp only [List.map_cons, List.cons_append, hgiven.name, List.count_cons_self,
              List.count_append] at hcount
            omega
          have hentryTakes := h.takes hentry hgiven.fits hfresh
          rwa [← hgiven.name] at hentryTakes
        · exact h.takes_other hname hvalue seen
      rw [List.findSome?_cons]
      cases hrefused : refused member.1 with
      | some reason =>
          rw [hrefused] at htakes
          exact .fault htakes
      | none =>
          rw [hrefused] at htakes
          have hlater : ∀ name ∈ entries.map Entry.name,
              (members.map Prod.fst ++ member.1 :: seen).count name ≤ 1 := by
            intro name hname
            have hcount := honce name hname
            simp only [List.map_cons, List.cons_append, List.count_cons, List.count_append]
              at hcount ⊢
            omega
          have hrest := ih (fun other hother => hmembers other (by simp [hother])) hlater
          simpa using Takes.cons htakes hrest

end Tracks

end Shape

/-! ## Objects -/

theorem Presents.exists_takes {fields : List (Field δ)} {room : Nat} {entries : List Entry}
    {draftOf : List String → δ} {refused : String → Option Reason} {text : List Char}
    (h : Presents entries text) (htracks : Shape.Tracks fields room entries draftOf refused) :
    ∃ members outcome, IsObject members text ∧
      Shape.Takes fields room (draftOf []) members outcome ∧
      ((∀ entry ∈ entries, entry.given = true → refused entry.name = none) ∧
          outcome = .ok (draftOf ((entries.filter (·.given)).map Entry.name)) ∨
        ∃ entry ∈ entries, entry.given = true ∧
          ∃ reason, refused entry.name = some reason ∧ outcome = .error reason) := by
  obtain ⟨hobject, horder, hknown, hothers⟩ := h
  rename_i members known others
  have hcases : ∀ member ∈ members,
      (∃ entry ∈ entries, entry.given = true ∧ entry.IsGivenBy member) ∨
        member.1 ∉ entries.map Entry.name ∧ IsValue member.2 := fun _ hmember =>
    isGivenBy_or_other horder hknown hothers hmember
  have hcount : ∀ name ∈ entries.map Entry.name, (members.map Prod.fst).count name =
      ((entries.filter (·.given)).map Entry.name).count name := fun name hname =>
    count_members_name horder hknown (fun member hmember => (hothers member hmember).1) hname
  have hmem : ∀ name ∈ entries.map Entry.name, name ∈ members.map Prod.fst ↔
      name ∈ (entries.filter (·.given)).map Entry.name := by
    intro name hname
    rw [← List.count_pos_iff, hcount name hname, List.count_pos_iff]
  have honce : ∀ name ∈ entries.map Entry.name, (members.map Prod.fst ++ []).count name ≤ 1 := by
    intro name hname
    have hnodup : ((entries.filter (·.given)).map Entry.name).Nodup :=
      htracks.nodup.sublist (List.filter_sublist.map _)
    rw [List.append_nil, hcount name hname]
    exact List.nodup_iff_count_le_one.mp hnodup name
  have htaken := htracks.takes_members (fun member hmember => (hcases member hmember).imp_left
    fun ⟨entry, hentry, _, hgiven⟩ => ⟨entry, hentry, hgiven⟩) honce
  refine ⟨members, _, hobject, htaken, ?_⟩
  cases hrefused : members.findSome? fun member => refused member.1 with
  | none =>
      rw [List.findSome?_eq_none_iff] at hrefused
      refine .inl ⟨fun entry hentry hgiven => ?_, ?_⟩
      · have hname := (hmem entry.name (List.mem_map_of_mem hentry)).mpr
          (List.mem_map_of_mem (List.mem_filter.mpr ⟨hentry, hgiven⟩))
        obtain ⟨member, hmember, heq⟩ := List.mem_map.mp hname
        rw [← heq]
        exact hrefused member hmember
      · rw [Option.elim_none]
        congr 1
        apply htracks.same
        intro name hname
        rw [List.append_nil, List.mem_reverse, hmem name hname]
  | some reason =>
      obtain ⟨member, hmember, hreason⟩ := List.exists_of_findSome?_eq_some hrefused
      rcases hcases member hmember with ⟨entry, hentry, hflag, hgiven⟩ | ⟨hname, -⟩
      · exact .inr ⟨entry, hentry, hflag, reason, hgiven.name ▸ hreason, rfl⟩
      · rw [htracks.others hname] at hreason
        cases hreason

end Manuscript.Json
