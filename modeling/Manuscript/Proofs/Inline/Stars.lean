import Manuscript.Proofs.Inline.Dropped

/-!
# Texts of asterisks

In a text of nothing but asterisks a marker encloses something if there are enough of them for the
two markers and one asterisk between, and that asterisk is then the shortest text.  So their number
alone decides what is read.  Seven at a time are bold and italic, and fewer than seven give at most
one span.
-/

namespace Manuscript.Inline

def Marker.fewest (marker : Marker) : Nat :=
  2 * marker.width + 1

theorem enclosesFirst_stars (marker : Marker) (count : Nat) :
    EnclosesFirst marker (List.replicate (marker.fewest + count) '*') ['*']
      (List.replicate count '*') := by
  refine ⟨⟨?_, by simp, by simp⟩, ?_⟩
  · have hsplit : marker.fewest + count = marker.width + 1 + marker.width + count := by
      rw [Marker.fewest]
      omega
    rw [hsplit, List.replicate_add, List.replicate_add, List.replicate_add]
    rfl
  · intro other tail hother
    exact List.length_pos_iff.mpr hother.nonempty

theorem exists_encloses_stars_iff {marker : Marker} {count : Nat} :
    (∃ text rest, Encloses marker (List.replicate count '*') text rest) ↔
      marker.fewest ≤ count := by
  constructor
  · rintro ⟨text, rest, hencloses⟩
    have htext : 0 < text.length := List.length_pos_iff.mpr hencloses.nonempty
    have hlength := congrArg List.length hencloses.spelled
    simp only [List.length_replicate, List.length_append, length_stars] at hlength
    rw [Marker.fewest]
    omega
  · intro hfewest
    rcases Nat.exists_eq_add_of_le hfewest with ⟨more, rfl⟩
    exact ⟨_, _, (enclosesFirst_stars marker more).toEncloses⟩

theorem factors_stars_enclosed {marker : Marker} {count : Nat}
    (hwidest : ∀ wider : Marker, marker.width < wider.width →
      marker.fewest + count < wider.fewest) :
    factors (List.replicate (marker.fewest + count) '*') =
      .enclosed marker ['*'] :: factors (List.replicate count '*') := by
  apply factors_of_readsFirst
  refine readsFirst_enclosed_iff.mpr ⟨enclosesFirst_stars marker count, ?_⟩
  intro wider hwidth hencloses
  have henough := exists_encloses_stars_iff.mp hencloses
  have hfew := hwidest wider hwidth
  omega

theorem factors_stars_seven (count : Nat) :
    factors (List.replicate (7 + count) '*') =
      .enclosed .boldItalic ['*'] :: factors (List.replicate count '*') := by
  have hwidest : ∀ wider : Marker, Marker.boldItalic.width < wider.width →
      Marker.boldItalic.fewest + count < wider.fewest := by
    intro wider hwidth
    cases wider <;> simp [Marker.width] at hwidth
  exact factors_stars_enclosed hwidest

theorem factors_stars_sevens (sevens count : Nat) :
    factors (List.replicate (7 * sevens + count) '*') =
      List.replicate sevens (.enclosed .boldItalic ['*']) ++
        factors (List.replicate count '*') := by
  induction sevens with
  | zero => rw [Nat.mul_zero, Nat.zero_add, List.replicate_zero, List.nil_append]
  | succ sevens ih =>
      have hfirst : 7 * (sevens + 1) + count = 7 + (7 * sevens + count) := by omega
      rw [hfirst, factors_stars_seven, ih, List.replicate_succ, List.cons_append]

theorem spansOf_factors_few {count : Nat} (hcount : count ≤ 2) :
    spansOf (factors (List.replicate count '*')) = [] := by
  have hfactors : factors (List.replicate count '*' ++ []) =
      List.replicate count .star ++ factors [] :=
    factors_stars hcount (by simp)
  rw [List.append_nil] at hfactors
  rw [hfactors, spansOf_stars, factors, spansOf]

theorem spansOf_factors_fewest (marker : Marker) {count : Nat} (hcount : count ≤ 1) :
    spansOf (factors (List.replicate (marker.fewest + count) '*')) = [marker.span ['*']] := by
  have hwidest : ∀ wider : Marker, marker.width < wider.width →
      marker.fewest + count < wider.fewest := by
    intro wider hwidth
    simp only [Marker.fewest]
    omega
  rw [factors_stars_enclosed hwidest, spansOf_enclosed, spansOf_factors_few (by omega)]

theorem spansOf_factors_lt_seven {count : Nat} (hcount : count < 7) :
    spansOf (factors (List.replicate count '*')) =
      if count ≤ 2 then [] else if count ≤ 4 then [⟨"*", false, true⟩]
      else [⟨"*", true, false⟩] := by
  by_cases hfew : count ≤ 2
  · rw [if_pos hfew]
    exact spansOf_factors_few hfew
  rw [if_neg hfew]
  by_cases hfour : count ≤ 4
  · have hitalic : count = Marker.italic.fewest + (count - 3) := by
      simp only [Marker.fewest, Marker.width]
      omega
    rw [if_pos hfour, hitalic]
    exact spansOf_factors_fewest .italic (by omega)
  · have hbold : count = Marker.bold.fewest + (count - 5) := by
      simp only [Marker.fewest, Marker.width]
      omega
    rw [if_neg hfour, hbold]
    exact spansOf_factors_fewest .bold (by omega)

theorem spansOf_replicate_enclosed (count : Nat) (marker : Marker) (text : List Char)
    (factors : List Factor) :
    spansOf (List.replicate count (.enclosed marker text) ++ factors) =
      List.replicate count (marker.span text) ++ spansOf factors := by
  induction count with
  | zero => rfl
  | succ count ih =>
      rw [List.replicate_succ, List.cons_append, spansOf_enclosed, ih]
      rfl

/-- The spans of any number of asterisks, from the sevens in it and what is left over. -/
theorem parse_stars {count sevens left : Nat} (hcount : count = 7 * sevens + left)
    (hleft : left < 7) :
    parse (String.ofList (List.replicate count '*')) =
      List.replicate sevens ⟨"*", true, true⟩ ++
        (if left ≤ 2 then [] else if left ≤ 4 then [⟨"*", false, true⟩]
        else [⟨"*", true, false⟩]) := by
  have hparse : parse (String.ofList (List.replicate count '*')) =
      spansOf (factors (List.replicate count '*')) := by
    rw [parse, String.toList_ofList, filterMap_span?]
  rw [hparse, hcount, factors_stars_sevens, spansOf_replicate_enclosed,
    spansOf_factors_lt_seven hleft]
  rfl

theorem parse_stars_twenty :
    20 = 7 * 2 + 6 ∧ 6 < 7 ∧
      parse "********************" =
        [⟨"*", true, true⟩, ⟨"*", true, true⟩, ⟨"*", true, false⟩] := by
  have hcount : 20 = 7 * 2 + 6 := rfl
  have hleft : 6 < 7 := by decide
  exact ⟨hcount, hleft, parse_stars hcount hleft⟩

end Manuscript.Inline
