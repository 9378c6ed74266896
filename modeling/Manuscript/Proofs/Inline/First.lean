import Manuscript.Proofs.Inline.Factorization

/-!
# What is read first

Every kind of factor has its own condition for being read first.  A run reaches up to an asterisk
or the end.  An enclosed text is the shortest one between its markers, and no wider marker encloses
anything.  A single asterisk is read where no marker encloses anything at all.
-/

namespace Manuscript.Inline

variable {marker : Marker} {cs text rest : List Char} {factor : Factor}

theorem exists_enclosesFirst {other tail : List Char} (h : Encloses marker cs other tail) :
    ∃ text rest, EnclosesFirst marker cs text rest := by
  rcases enclosed?_complete h with ⟨text, rest, henclosed, -⟩
  exact ⟨text, rest, (enclosed?_eq_some_iff marker cs text rest).mp henclosed⟩

theorem exists_reads_enclosed_iff :
    (∃ factor rest, (Alternative.enclosed marker).Reads cs factor rest) ↔
      ∃ text rest, Encloses marker cs text rest := by
  constructor
  · rintro ⟨factor, rest, hreads⟩
    cases hreads with
    | enclosed hencloses => exact ⟨_, rest, hencloses.toEncloses⟩
  · rintro ⟨text, rest, hencloses⟩
    rcases exists_enclosesFirst hencloses with ⟨first, tail, hfirst⟩
    exact ⟨_, tail, .enclosed hfirst⟩

theorem head?_of_encloses (h : Encloses marker cs text rest) : cs.head? = some '*' := by
  rcases stars_eq_cons marker with ⟨stars, hstars⟩
  rw [h.spelled, hstars]
  rfl

theorem readsFirst_run_iff :
    ReadsFirst cs (.plain text) rest ↔
      cs = text ++ rest ∧ text ≠ [] ∧ '*' ∉ text ∧ (rest = [] ∨ rest.head? = some '*') := by
  constructor
  · rintro ⟨alternative, hreads, -⟩
    cases hreads with
    | run hspelled hne hstar hrest => exact ⟨hspelled, hne, hstar, hrest⟩
  · rintro ⟨rfl, hne, hstar, hrest⟩
    refine ⟨.run, .run rfl hne hstar hrest, ?_⟩
    intro earlier hrank other tail
    rcases List.exists_cons_of_ne_nil hne with ⟨c, text, rfl⟩
    simp only [List.mem_cons, not_or] at hstar
    rcases earlier with marker | _ | _ <;> simp [Alternative.rank] at hrank
    exact not_reads_enclosed_cons (Ne.symm hstar.1) marker _ tail other

theorem rank_lt_enclosed_iff {earlier : Alternative} :
    earlier.rank < (Alternative.enclosed marker).rank ↔
      ∃ wider : Marker, marker.width < wider.width ∧ earlier = .enclosed wider := by
  cases earlier with
  | enclosed wider => cases marker <;> cases wider <;> simp [Alternative.rank, Marker.width]
  | run | star => cases marker <;> simp [Alternative.rank]

theorem readsFirst_enclosed_iff :
    ReadsFirst cs (.enclosed marker text) rest ↔
      EnclosesFirst marker cs text rest ∧ ∀ wider : Marker, marker.width < wider.width →
        ¬ ∃ other tail, Encloses wider cs other tail := by
  constructor
  · rintro ⟨alternative, hreads, hearlier⟩
    cases hreads with
    | enclosed hencloses =>
        refine ⟨hencloses, ?_⟩
        intro wider hwidth hwider
        rcases exists_reads_enclosed_iff.mpr hwider with ⟨other, tail, hother⟩
        exact hearlier _ (rank_lt_enclosed_iff.mpr ⟨wider, hwidth, rfl⟩) other tail hother
  · rintro ⟨hencloses, hnone⟩
    refine ⟨.enclosed marker, .enclosed hencloses, ?_⟩
    intro earlier hrank other tail hother
    rcases rank_lt_enclosed_iff.mp hrank with ⟨wider, hwidth, rfl⟩
    exact hnone wider hwidth (exists_reads_enclosed_iff.mp ⟨other, tail, hother⟩)

theorem readsFirst_star_iff :
    ReadsFirst ('*' :: cs) .star cs ↔
      ∀ marker : Marker, ¬ ∃ text rest, Encloses marker ('*' :: cs) text rest := by
  constructor
  · rintro ⟨alternative, hreads, hearlier⟩ marker hencloses
    rcases exists_reads_enclosed_iff.mpr hencloses with ⟨other, tail, hother⟩
    cases hreads with
    | star =>
        have hrank : (Alternative.enclosed marker).rank < Alternative.star.rank := by
          cases marker <;> decide
        exact hearlier _ hrank other tail hother
  · intro hnone
    refine ⟨.star, .star, ?_⟩
    intro earlier hrank other tail hother
    cases earlier with
    | enclosed marker => exact hnone marker (exists_reads_enclosed_iff.mp ⟨other, tail, hother⟩)
    | run => exact not_reads_run cs tail other hother
    | star => simp at hrank

theorem ReadsFirst.spelled (h : ReadsFirst cs factor rest) : cs = factor.spelling ++ rest := by
  rcases h with ⟨alternative, hreads, -⟩
  exact hreads.spelled

theorem factors_of_readsFirst (h : ReadsFirst cs factor rest) :
    factors cs = factor :: factors rest :=
  (factorization_factors cs).unique (.cons h (factorization_factors rest))

theorem readsFirst_of_factors {others : List Factor} (h : factors cs = factor :: others) :
    ∃ rest, ReadsFirst cs factor rest ∧ factors rest = others := by
  have hfactorization := factorization_factors cs
  rw [h] at hfactorization
  cases hfactorization with
  | cons hreads hrest => exact ⟨_, hreads, (factorization_factors _).unique hrest⟩

end Manuscript.Inline
