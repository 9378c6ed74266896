import Manuscript.Inline
import Mathlib.Data.List.Basic

/-!
# Pairs of markers

A pair of markers may enclose several texts at the front of a text, because the closing marker
may occur more than once.  The search for the closing marker finds the shortest of these texts,
and finds one whenever there is any.
-/

namespace Manuscript.Inline

/-- A pair of markers around a text of one line, at the front of `cs`. -/
structure Encloses (marker : Marker) (cs text rest : List Char) : Prop where
  spelled : cs = marker.stars ++ text ++ marker.stars ++ rest
  nonempty : text ≠ []
  oneLine : '\n' ∉ text

/-- The shortest text that a pair of markers encloses at the front of `cs`. -/
structure EnclosesFirst (marker : Marker) (cs text rest : List Char) : Prop
    extends Encloses marker cs text rest where
  shortest : ∀ other tail, Encloses marker cs other tail → text.length ≤ other.length

theorem EnclosesFirst.unique {marker : Marker} {cs text text' rest rest' : List Char}
    (h : EnclosesFirst marker cs text rest) (h' : EnclosesFirst marker cs text' rest') :
    text = text' ∧ rest = rest' := by
  have hlength : text.length = text'.length :=
    Nat.le_antisymm (h.shortest _ _ h'.toEncloses) (h'.shortest _ _ h.toEncloses)
  have hspelled := h.spelled.symm.trans h'.spelled
  simp only [List.append_assoc, List.append_cancel_left_eq] at hspelled
  rcases List.append_inj hspelled hlength with ⟨rfl, htail⟩
  exact ⟨rfl, List.append_cancel_left htail⟩

theorem length_stars (marker : Marker) : marker.stars.length = marker.width := by
  simp [Marker.stars]

theorem stars_eq_cons (marker : Marker) : ∃ tail, marker.stars = '*' :: tail := by
  cases marker <;> exact ⟨_, rfl⟩

theorem opened?_eq_some_iff (marker : Marker) (cs rest : List Char) :
    marker.opened? cs = some rest ↔ cs = marker.stars ++ rest := by
  unfold Marker.opened?
  constructor
  · intro h
    split at h
    · rename_i hstars
      rcases List.isPrefixOf_iff_prefix.mp hstars with ⟨tail, rfl⟩
      rw [← length_stars, List.drop_left, Option.some.injEq] at h
      rw [h]
    · simp at h
  · rintro rfl
    have hstars : marker.stars.isPrefixOf (marker.stars ++ rest) = true :=
      List.isPrefixOf_iff_prefix.mpr (List.prefix_append _ _)
    rw [if_pos hstars, ← length_stars, List.drop_left]

theorem until?_sound {marker : Marker} {cs inner rest : List Char}
    (h : marker.until? cs = some (inner, rest)) :
    cs = inner ++ marker.stars ++ rest ∧ '\n' ∉ inner := by
  induction cs generalizing inner with
  | nil => simp [Marker.until?] at h
  | cons c cs ih =>
      unfold Marker.until? at h
      split at h
      · rename_i tail hopened
        simp only [Option.some.injEq, Prod.mk.injEq] at h
        rcases h with ⟨rfl, rfl⟩
        constructor
        · exact (opened?_eq_some_iff marker (c :: cs) tail).mp hopened
        · simp
      · split at h
        · simp at h
        · rename_i hline
          rcases Option.map_eq_some_iff.mp h with ⟨⟨inner', rest'⟩, huntil, heq⟩
          rcases Prod.mk.inj heq with ⟨rfl, rfl⟩
          rcases ih huntil with ⟨rfl, hinner⟩
          constructor
          · simp
          · simp [hinner, Ne.symm hline]

theorem until?_complete (marker : Marker) {other : List Char} (hother : '\n' ∉ other)
    (tail : List Char) :
    ∃ inner rest, marker.until? (other ++ marker.stars ++ tail) = some (inner, rest) ∧
      inner.length ≤ other.length := by
  induction other with
  | nil =>
      have hopened := (opened?_eq_some_iff marker _ tail).mpr rfl
      rcases stars_eq_cons marker with ⟨stars, hstars⟩
      refine ⟨[], tail, ?_, Nat.le_refl _⟩
      rw [hstars, List.cons_append] at hopened
      rw [List.nil_append, hstars, List.cons_append, Marker.until?, hopened]
  | cons c other ih =>
      simp only [List.mem_cons, not_or] at hother
      rcases ih hother.2 with ⟨inner, rest, huntil, hlength⟩
      rw [List.cons_append, List.cons_append, Marker.until?]
      cases hopened : marker.opened? (c :: (other ++ marker.stars ++ tail)) with
      -- here the shortest text is empty, however far `other` reaches
      | some rest' => exact ⟨[], rest', rfl, Nat.zero_le _⟩
      | none =>
          refine ⟨c :: inner, rest, ?_, Nat.succ_le_succ hlength⟩
          simp only [if_neg (Ne.symm hother.1), huntil]
          rfl

theorem enclosed?_sound {marker : Marker} {cs text rest : List Char}
    (h : marker.enclosed? cs = some (text, rest)) : Encloses marker cs text rest := by
  unfold Marker.enclosed? at h
  split at h
  · rename_i c tail hopened
    rw [opened?_eq_some_iff] at hopened
    split at h
    · simp at h
    · rename_i hline
      rcases Option.map_eq_some_iff.mp h with ⟨⟨inner, rest'⟩, huntil, heq⟩
      rcases Prod.mk.inj heq with ⟨rfl, rfl⟩
      rcases until?_sound huntil with ⟨rfl, hinner⟩
      refine ⟨?_, ?_, ?_⟩
      · simp [hopened]
      · simp
      · simp [hinner, Ne.symm hline]
  · simp at h

theorem enclosed?_complete {marker : Marker} {cs other tail : List Char}
    (h : Encloses marker cs other tail) :
    ∃ text rest, marker.enclosed? cs = some (text, rest) ∧ text.length ≤ other.length := by
  rcases h with ⟨rfl, hnonempty, hline⟩
  rcases List.exists_cons_of_ne_nil hnonempty with ⟨c, other, rfl⟩
  simp only [List.mem_cons, not_or] at hline
  rcases until?_complete marker hline.2 tail with ⟨inner, rest, huntil, hlength⟩
  have hopened : marker.opened? (marker.stars ++ (c :: other) ++ marker.stars ++ tail) =
      some (c :: (other ++ marker.stars ++ tail)) := by
    rw [opened?_eq_some_iff]
    simp
  refine ⟨c :: inner, rest, ?_, Nat.succ_le_succ hlength⟩
  rw [Marker.enclosed?, hopened]
  simp only [if_neg (Ne.symm hline.1), huntil]
  rfl

theorem enclosed?_eq_some_iff (marker : Marker) (cs text rest : List Char) :
    marker.enclosed? cs = some (text, rest) ↔ EnclosesFirst marker cs text rest := by
  have hfirst : ∀ {text rest}, marker.enclosed? cs = some (text, rest) →
      EnclosesFirst marker cs text rest := by
    intro text rest h
    refine ⟨enclosed?_sound h, fun other tail hother => ?_⟩
    rcases enclosed?_complete hother with ⟨text', rest', h', hlength⟩
    rw [h] at h'
    cases h'
    exact hlength
  constructor
  · exact hfirst
  · intro h
    rcases enclosed?_complete h.toEncloses with ⟨text', rest', h', -⟩
    rcases h.unique (hfirst h') with ⟨rfl, rfl⟩
    exact h'

theorem enclosed?_eq_none_iff (marker : Marker) (cs : List Char) :
    marker.enclosed? cs = none ↔ ∀ text rest, ¬ EnclosesFirst marker cs text rest := by
  simp only [Option.eq_none_iff_forall_ne_some, Prod.forall, ne_eq, enclosed?_eq_some_iff]

end Manuscript.Inline
