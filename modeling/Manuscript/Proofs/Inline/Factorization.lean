import Manuscript.Proofs.Inline.Markers

/-!
# Emphasis as a unique factorization

At every position the factor is read by the first of five alternatives that applies: three kinds
of enclosed text, a maximal run of other characters, and a single asterisk.  The alternatives
determine the factorization of a text completely, and `factors` computes it.
-/

namespace Manuscript.Inline

inductive Alternative where
  | enclosed (marker : Marker)
  | run
  | star
  deriving DecidableEq, Repr

def Alternative.rank : Alternative → Nat
  | enclosed .boldItalic => 0
  | enclosed .bold => 1
  | enclosed .italic => 2
  | run => 3
  | star => 4

/-- The factor that an alternative reads at the front of a text, and what follows it. -/
inductive Alternative.Reads : Alternative → List Char → Factor → List Char → Prop
  | enclosed {marker : Marker} {cs text rest : List Char} :
      EnclosesFirst marker cs text rest → Reads (enclosed marker) cs (.enclosed marker text) rest
  | run {cs text rest : List Char} :
      cs = text ++ rest → text ≠ [] → '*' ∉ text → (rest = [] ∨ rest.head? = some '*') →
        Reads run cs (.plain text) rest
  | star {rest : List Char} : Reads star ('*' :: rest) .star rest

/-- The first alternative that applies to `cs` reads `factor` and leaves `rest`. -/
def ReadsFirst (cs : List Char) (factor : Factor) (rest : List Char) : Prop :=
  ∃ alternative : Alternative, alternative.Reads cs factor rest ∧
    ∀ earlier : Alternative, earlier.rank < alternative.rank →
      ∀ other tail, ¬ earlier.Reads cs other tail

/-- Consecutive factors of a text, each read by the first alternative that applies. -/
inductive Factorization : List Char → List Factor → Prop
  | nil : Factorization [] []
  | cons {cs rest : List Char} {factor : Factor} {factors : List Factor} :
      ReadsFirst cs factor rest → Factorization rest factors →
        Factorization cs (factor :: factors)

def spansOf : List Factor → List Span
  | [] => []
  | .enclosed .boldItalic text :: factors => ⟨String.ofList text, true, true⟩ :: spansOf factors
  | .enclosed .bold text :: factors => ⟨String.ofList text, true, false⟩ :: spansOf factors
  | .enclosed .italic text :: factors => ⟨String.ofList text, false, true⟩ :: spansOf factors
  | .plain text :: factors => ⟨String.ofList text, false, false⟩ :: spansOf factors
  | .star :: factors => spansOf factors

theorem Alternative.rank_injective : Function.Injective Alternative.rank := by
  intro first second h
  cases first with
  | enclosed marker =>
      cases second with
      | enclosed marker' => cases marker <;> cases marker' <;> first | rfl | simp [rank] at h
      | run | star => cases marker <;> simp [rank] at h
  | run | star =>
      cases second with
      | enclosed marker => cases marker <;> simp [rank] at h
      | run | star => first | rfl | simp [rank] at h

theorem takeWhile_run {text rest : List Char} (htext : '*' ∉ text)
    (hrest : rest = [] ∨ rest.head? = some '*') :
    (text ++ rest).takeWhile (· != '*') = text := by
  have hall : ∀ c ∈ text, (c != '*') = true := by
    rintro c hc
    simp only [bne_iff_ne, ne_eq]
    rintro rfl
    exact htext hc
  rw [List.takeWhile_append_of_pos hall]
  rcases hrest with rfl | hhead
  · simp
  · rcases List.head?_eq_some_iff.mp hhead with ⟨tail, rfl⟩
    simp

theorem Alternative.Reads.unique {alternative : Alternative} {cs rest rest' : List Char}
    {factor factor' : Factor} (h : alternative.Reads cs factor rest)
    (h' : alternative.Reads cs factor' rest') : factor = factor' ∧ rest = rest' := by
  cases h with
  | enclosed hencloses =>
      cases h' with
      | enclosed hencloses' =>
          rcases hencloses.unique hencloses' with ⟨rfl, rfl⟩
          exact ⟨rfl, rfl⟩
  | run hcs _ hstar hrest =>
      cases h' with
      | run hcs' _ hstar' hrest' =>
          have htext := takeWhile_run hstar hrest
          rw [← hcs, hcs', takeWhile_run hstar' hrest'] at htext
          subst htext
          exact ⟨rfl, List.append_cancel_left (hcs.symm.trans hcs')⟩
  | star =>
      cases h'
      exact ⟨rfl, rfl⟩

theorem ReadsFirst.unique {cs rest rest' : List Char} {factor factor' : Factor}
    (h : ReadsFirst cs factor rest) (h' : ReadsFirst cs factor' rest') :
    factor = factor' ∧ rest = rest' := by
  rcases h with ⟨alternative, hreads, hfirst⟩
  rcases h' with ⟨alternative', hreads', hfirst'⟩
  rcases Nat.lt_trichotomy alternative.rank alternative'.rank with hlt | heq | hgt
  · exact absurd hreads (hfirst' alternative hlt factor rest)
  · obtain rfl := Alternative.rank_injective heq
    exact hreads.unique hreads'
  · exact absurd hreads' (hfirst alternative' hgt factor' rest')

theorem Alternative.Reads.spelled {alternative : Alternative} {cs rest : List Char}
    {factor : Factor} (h : alternative.Reads cs factor rest) : cs = factor.spelling ++ rest := by
  cases h with
  | enclosed hencloses => exact hencloses.spelled
  | run hcs => exact hcs
  | star => rfl

theorem Factorization.spelled {cs : List Char} {factors : List Factor}
    (h : Factorization cs factors) : factors.flatMap Factor.spelling = cs := by
  induction h with
  | nil => rfl
  | cons hreads _ ih =>
      rcases hreads with ⟨alternative, hreads, -⟩
      rw [List.flatMap_cons, ih, ← hreads.spelled]

theorem not_readsFirst_nil (factor : Factor) (rest : List Char) :
    ¬ ReadsFirst [] factor rest := by
  rintro ⟨alternative, hreads, -⟩
  cases hreads with
  | @enclosed marker _ text _ hencloses =>
      rcases stars_eq_cons marker with ⟨tail, hstars⟩
      have hspelled := hencloses.spelled
      simp [hstars] at hspelled
  | run hcs hne =>
      exact hne (List.append_eq_nil_iff.mp hcs.symm).1

theorem Factorization.unique {cs : List Char} {factors factors' : List Factor}
    (h : Factorization cs factors) (h' : Factorization cs factors') : factors = factors' := by
  induction h generalizing factors' with
  | nil =>
      cases h' with
      | nil => rfl
      | cons hreads => exact absurd hreads (not_readsFirst_nil _ _)
  | cons hreads _ ih =>
      cases h' with
      | nil => exact absurd hreads (not_readsFirst_nil _ _)
      | cons hreads' htail' =>
          rcases hreads.unique hreads' with ⟨rfl, rfl⟩
          rw [ih htail']

/-! ## Reading a text -/

theorem not_reads_enclosed {marker : Marker} {cs tail : List Char} {factor : Factor}
    (h : marker.enclosed? cs = none) :
    ¬ (Alternative.enclosed marker).Reads cs factor tail := by
  intro hreads
  cases hreads with
  | enclosed hencloses => exact (enclosed?_eq_none_iff marker cs).mp h _ _ hencloses

theorem not_reads_run (cs tail : List Char) (factor : Factor) :
    ¬ Alternative.run.Reads ('*' :: cs) factor tail := by
  intro hreads
  cases hreads with
  | @run _ text _ hcs hne hstar =>
      rcases List.exists_cons_of_ne_nil hne with ⟨c, text, rfl⟩
      rw [List.cons_append, List.cons.injEq] at hcs
      rcases hcs with ⟨rfl, -⟩
      exact hstar (by simp)

theorem reads_of_enclosed? {marker : Marker} {cs text rest : List Char}
    (h : marker.enclosed? cs = some (text, rest)) :
    (Alternative.enclosed marker).Reads cs (.enclosed marker text) rest :=
  .enclosed ((enclosed?_eq_some_iff marker cs text rest).mp h)

theorem readsFirst_starred (cs : List Char) :
    ReadsFirst ('*' :: cs) (starred cs).1 (starred cs).2 := by
  unfold starred
  split
  · rename_i text rest hboldItalic
    refine ⟨.enclosed .boldItalic, reads_of_enclosed? hboldItalic, ?_⟩
    intro earlier hrank
    simp [Alternative.rank] at hrank
  rename_i hboldItalic
  split
  · rename_i text rest hbold
    refine ⟨.enclosed .bold, reads_of_enclosed? hbold, ?_⟩
    intro earlier hrank other tail
    rcases earlier with ⟨_ | _ | _⟩ | _ | _ <;> simp [Alternative.rank] at hrank
    exact not_reads_enclosed hboldItalic
  rename_i hbold
  split
  · rename_i text rest hitalic
    refine ⟨.enclosed .italic, reads_of_enclosed? hitalic, ?_⟩
    intro earlier hrank other tail
    rcases earlier with ⟨_ | _ | _⟩ | _ | _ <;> simp [Alternative.rank] at hrank
    · exact not_reads_enclosed hboldItalic
    · exact not_reads_enclosed hbold
  rename_i hitalic
  refine ⟨.star, .star, ?_⟩
  intro earlier hrank other tail
  rcases earlier with ⟨_ | _ | _⟩ | _ | _ <;> simp [Alternative.rank] at hrank
  · exact not_reads_enclosed hboldItalic
  · exact not_reads_enclosed hbold
  · exact not_reads_enclosed hitalic
  · exact not_reads_run cs tail other

theorem not_reads_enclosed_cons {c : Char} (hc : c ≠ '*') (marker : Marker)
    (cs tail : List Char) (factor : Factor) :
    ¬ (Alternative.enclosed marker).Reads (c :: cs) factor tail := by
  intro hreads
  cases hreads with
  | enclosed hencloses =>
      rcases stars_eq_cons marker with ⟨stars, hstars⟩
      have hspelled := hencloses.spelled
      simp only [hstars, List.cons_append, List.cons.injEq] at hspelled
      exact hc hspelled.1

theorem readsFirst_firstFactor (c : Char) (cs : List Char) :
    ReadsFirst (c :: cs) (firstFactor c cs).1 (firstFactor c cs).2 := by
  unfold firstFactor
  split
  · rename_i hc
    subst hc
    exact readsFirst_starred cs
  · rename_i hc
    refine ⟨.run, .run (by simp) (by simp) ?_ ?_, ?_⟩
    · simp only [List.mem_cons, not_or]
      constructor
      · exact Ne.symm hc
      intro hmem
      simpa using List.all_eq_true.mp List.all_takeWhile '*' hmem
    · cases hrest : cs.dropWhile (· != '*') with
      | nil => exact .inl rfl
      | cons d rest =>
          have hd := List.head?_dropWhile_not (· != '*') cs
          rw [hrest] at hd
          simp only [List.head?_cons, bne_eq_false_iff_eq] at hd
          exact .inr (by simp [hd])
    · intro earlier hrank other tail
      rcases earlier with marker | _ | _ <;> simp [Alternative.rank] at hrank
      exact not_reads_enclosed_cons hc marker cs tail other

theorem factorization_factors (cs : List Char) : Factorization cs (factors cs) := by
  induction cs using factors.induct with
  | case1 =>
      rw [factors]
      exact .nil
  | case2 c cs ih =>
      rw [factors]
      exact .cons (readsFirst_firstFactor c cs) ih

theorem filterMap_span? (factors : List Factor) :
    factors.filterMap Factor.span? = spansOf factors := by
  induction factors with
  | nil => rfl
  | cons factor factors ih =>
      rcases factor with ⟨_ | _ | _, text⟩ | text | _ <;>
        simp [Factor.span?, spansOf, List.filterMap_cons, ih]

theorem Factorization.text_ne_nil {cs : List Char} {factors : List Factor}
    (h : Factorization cs factors) : ∀ span ∈ spansOf factors, span.text ≠ "" := by
  induction h with
  | nil => simp [spansOf]
  | @cons cs rest factor factors hreads _ ih =>
      rcases hreads with ⟨alternative, hreads, -⟩
      cases hreads with
      | @enclosed marker _ text _ hencloses =>
          have hne : String.ofList text ≠ "" := by
            simpa using hencloses.nonempty
          cases marker <;> simpa [spansOf, hne] using ih
      | run hcs hne => simpa [spansOf, hne] using ih
      | star => exact ih

/-- Every text has exactly one factorization, it is spelled by the text without a gap, and its
spans are those that are parsed. -/
theorem parse_factorization (content : String) :
    ∃ factors, Factorization content.toList factors ∧
      (∀ others, Factorization content.toList others → others = factors) ∧
      factors.flatMap Factor.spelling = content.toList ∧
      parse content = spansOf factors ∧
      ∀ span ∈ parse content, span.text ≠ "" := by
  have hfactors := factorization_factors content.toList
  have hparse : parse content = spansOf (factors content.toList) := filterMap_span? _
  refine ⟨factors content.toList, hfactors, ?_, hfactors.spelled, hparse, ?_⟩
  · intro others hothers
    exact hothers.unique hfactors
  · rw [hparse]
    exact hfactors.text_ne_nil

end Manuscript.Inline
