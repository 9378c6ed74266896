import Manuscript.Proofs.Inline.Printing

/-!
# Asterisks that are dropped

An asterisk is dropped if it encloses nothing.  Then no asterisk follows it on its line, except
perhaps the very next character, because any other would close an enclosed text.  So a line loses
at most its last two asterisks, and whatever is read before them is read in the same way when they
are not there.
-/

namespace Manuscript.Inline

theorem ReadsFirst.not_mem_tail {rest : List Char} (h : ReadsFirst ('*' :: rest) .star rest)
    (hline : '\n' ∉ rest) : '*' ∉ rest.tail := by
  intro hmem
  cases rest with
  | nil => simp at hmem
  | cons c rest =>
      rw [List.tail_cons] at hmem
      rcases List.append_of_mem hmem with ⟨between, after, rfl⟩
      simp only [List.mem_cons, List.mem_append, not_or] at hline
      refine readsFirst_star_iff.mp h .italic ⟨c :: between, after, ?_, ?_, ?_⟩
      · simp [Marker.stars, Marker.width]
      · simp
      · simp [hline]

theorem mem_tail_of_encloses {marker : Marker} {cs text rest : List Char}
    (h : Encloses marker ('*' :: cs) text rest) : '*' ∈ cs.tail := by
  rcases List.exists_cons_of_ne_nil h.nonempty with ⟨c, text, rfl⟩
  have hspelled := h.spelled
  cases marker <;> simp [Marker.stars, Marker.width, List.replicate] at hspelled <;>
    simp [hspelled]

theorem readsFirst_star {cs : List Char} (h : '*' ∉ cs.tail) :
    ReadsFirst ('*' :: cs) .star cs := by
  rw [readsFirst_star_iff]
  rintro marker ⟨text, rest, hencloses⟩
  exact h (mem_tail_of_encloses hencloses)

theorem factors_stars {count : Nat} (hcount : count ≤ 2) {after : List Char}
    (hafter : '*' ∉ after) :
    factors (List.replicate count '*' ++ after) =
      List.replicate count .star ++ factors after := by
  have htail : '*' ∉ after.tail := fun hmem => hafter (List.mem_of_mem_tail hmem)
  match count, hcount with
  | 0, _ => rfl
  | 1, _ => exact factors_of_readsFirst (readsFirst_star htail)
  | 2, _ =>
      have hsecond : factors ('*' :: after) = .star :: factors after :=
        factors_of_readsFirst (readsFirst_star htail)
      have hfirst : factors ('*' :: '*' :: after) = .star :: factors ('*' :: after) :=
        factors_of_readsFirst (readsFirst_star hafter)
      exact hfirst.trans (by rw [hsecond]; rfl)

theorem spansOf_stars (count : Nat) (factors : List Factor) :
    spansOf (List.replicate count .star ++ factors) = spansOf factors := by
  induction count with
  | zero => rfl
  | succ count ih =>
      rw [List.replicate_succ, List.cons_append, spansOf, ih]

theorem Encloses.append {marker : Marker} {cs text rest : List Char}
    (h : Encloses marker cs text rest) (after : List Char) :
    Encloses marker (cs ++ after) text (rest ++ after) := by
  refine ⟨?_, h.nonempty, h.oneLine⟩
  rw [h.spelled, List.append_assoc _ rest]

theorem stars_eq_concat (marker : Marker) : ∃ front, marker.stars = front ++ ['*'] := by
  cases marker <;> exact ⟨_, List.replicate_succ'⟩

theorem Encloses.of_append {marker : Marker} {cs after text rest : List Char}
    (h : Encloses marker (cs ++ after) text rest) (hafter : '*' ∉ after) :
    ∃ rest', Encloses marker cs text rest' := by
  rcases List.append_eq_append_iff.mp h.spelled with ⟨more, hmore, hrest⟩ | ⟨more, hmore, -⟩
  · rcases List.eq_nil_or_concat' more with rfl | ⟨front, c, rfl⟩
    · exact ⟨[], by simpa using hmore.symm, h.nonempty, h.oneLine⟩
    · rcases stars_eq_concat marker with ⟨stars, hstars⟩
      have hlast := congrArg List.getLast? hmore
      simp only [hstars, ← List.append_assoc, List.getLast?_concat, Option.some.injEq] at hlast
      exact absurd (by simp [hrest, ← hlast]) hafter
  · exact ⟨more, hmore, h.nonempty, h.oneLine⟩

theorem Encloses.of_deleted {marker : Marker} {before after text rest : List Char}
    (h : Encloses marker (before ++ after) text rest) (hafter : '*' ∉ after)
    (deleted : List Char) : ∃ rest', Encloses marker (before ++ deleted ++ after) text rest' := by
  rcases h.of_append hafter with ⟨rest', hbefore⟩
  rw [List.append_assoc]
  exact ⟨_, hbefore.append (deleted ++ after)⟩

theorem ReadsFirst.of_fewer {marker : Marker} {cs cs' text rest rest' : List Char}
    (h : ReadsFirst cs (.enclosed marker text) rest)
    (hspelled : cs' = marker.stars ++ text ++ marker.stars ++ rest')
    (hfewer : ∀ (other : Marker) (text tail : List Char),
      Encloses other cs' text tail → ∃ tail', Encloses other cs text tail') :
    ReadsFirst cs' (.enclosed marker text) rest' := by
  rcases readsFirst_enclosed_iff.mp h with ⟨hfirst, hnone⟩
  refine readsFirst_enclosed_iff.mpr ⟨⟨⟨hspelled, hfirst.nonempty, hfirst.oneLine⟩, ?_⟩, ?_⟩
  · intro other tail hother
    rcases hfewer marker other tail hother with ⟨tail', hother'⟩
    exact hfirst.shortest other tail' hother'
  · rintro wider hwidth ⟨other, tail, hother⟩
    rcases hfewer wider other tail hother with ⟨tail', hother'⟩
    exact hnone wider hwidth ⟨other, tail', hother'⟩

def Marker.span (marker : Marker) (text : List Char) : Span :=
  match marker with
  | boldItalic => ⟨String.ofList text, true, true⟩
  | bold => ⟨String.ofList text, true, false⟩
  | italic => ⟨String.ofList text, false, true⟩

theorem Marker.marker?_span (marker : Marker) (text : List Char) :
    (marker.span text).marker? = some marker := by
  cases marker <;> rfl

theorem Marker.toList_text_span (marker : Marker) (text : List Char) :
    (marker.span text).text.toList = text := by
  cases marker <;> exact String.toList_ofList

theorem Marker.written_span (marker : Marker) (text : List Char) :
    (marker.span text).written = marker.stars ++ text ++ marker.stars := by
  rw [Span.written_of_marker? (marker.marker?_span text), marker.toList_text_span]

theorem spansOf_enclosed (marker : Marker) (text : List Char) (factors : List Factor) :
    spansOf (.enclosed marker text :: factors) = marker.span text :: spansOf factors := by
  cases marker <;> rfl

theorem written_plain (text : List Char) :
    Span.written ⟨String.ofList text, false, false⟩ = text := by
  rw [Span.written_of_isPlain rfl, String.toList_ofList]

/-! ## Dropping the last asterisks -/

/-- A text is what the spans are written as, except for one or two asterisks, if any: they are its
last ones, stand beside each other, and no emphasized span comes after them. -/
structure Drops (cs : List Char) (spans earlier later : List Span) (count : Nat) : Prop where
  split : spans = earlier ++ later
  spelled : cs = written earlier ++ List.replicate count '*' ++ written later
  count_le : count ≤ 2
  starless : '*' ∉ written later
  plain : ∀ span ∈ later, span.isPlain

section

variable {cs : List Char} {spans earlier later : List Span} {count : Nat}

theorem Drops.cons (h : Drops cs spans earlier later count) (span : Span) :
    Drops (span.written ++ cs) (span :: spans) (span :: earlier) later count := by
  refine ⟨?_, ?_, h.count_le, h.starless, h.plain⟩
  · rw [h.split, List.cons_append]
  · rw [h.spelled, written_cons, List.append_assoc, List.append_assoc, List.append_assoc]

theorem Drops.written_eq (h : Drops cs spans earlier later count) :
    written spans = written earlier ++ written later := by
  rw [h.split, written_append]

/-- The asterisks that are dropped are behind all closing markers, so an enclosed text is read
without them as it is with them. -/
theorem Drops.readsFirst (h : Drops cs spans earlier later count) {marker : Marker}
    {text : List Char}
    (hreads : ReadsFirst ((marker.span text).written ++ cs) (.enclosed marker text) cs) :
    ReadsFirst (written (marker.span text :: spans)) (.enclosed marker text) (written spans) := by
  apply hreads.of_fewer
  · rw [written_cons, marker.written_span]
  · intro other text tail hencloses
    rw [written_cons, h.written_eq, ← List.append_assoc] at hencloses
    rw [h.spelled, ← List.append_assoc, ← List.append_assoc]
    exact hencloses.of_deleted h.starless (List.replicate count '*')

end

theorem exists_drops_stars {count : Nat} (hcount : count ≤ 2) {after : List Char}
    (hafter : '*' ∉ after) :
    ∃ later, Drops (List.replicate count '*' ++ after)
      (spansOf (factors (List.replicate count '*' ++ after))) [] later count := by
  rw [factors_stars hcount hafter, spansOf_stars]
  cases after with
  | nil =>
      refine ⟨[], ?_, ?_, hcount, ?_, ?_⟩
      · simp [factors, spansOf]
      · simp [written]
      · simp [written]
      · simp
  | cons c after =>
      have hreads : ReadsFirst (c :: after) (.plain (c :: after)) [] :=
        readsFirst_run_iff.mpr ⟨by simp, by simp, hafter, .inl rfl⟩
      have hwritten : written [⟨String.ofList (c :: after), false, false⟩] = c :: after := by
        rw [written_cons, written_plain, written, List.flatMap_nil, List.append_nil]
      refine ⟨[⟨String.ofList (c :: after), false, false⟩], ?_, ?_, hcount, ?_, ?_⟩
      · simp [factors_of_readsFirst hreads, factors, spansOf]
      · rw [hwritten]
        rfl
      · rw [hwritten]
        exact hafter
      · simp [Span.isPlain, Span.marker?]

theorem exists_stars {rest : List Char} (h : '*' ∉ rest.tail) :
    ∃ count after, '*' :: rest = List.replicate count '*' ++ after ∧ count ≤ 2 ∧ '*' ∉ after := by
  by_cases hrest : rest.head? = some '*'
  · rcases List.head?_eq_some_iff.mp hrest with ⟨after, rfl⟩
    exact ⟨2, after, rfl, Nat.le_refl 2, h⟩
  · refine ⟨1, rest, rfl, by decide, ?_⟩
    cases rest with
    | nil => simp
    | cons c rest =>
        intro hmem
        rcases List.mem_cons.mp hmem with rfl | hmem
        · exact hrest rfl
        · exact h hmem

theorem Factorization.exists_drops {cs : List Char} {found : List Factor}
    (h : Factorization cs found) (hline : '\n' ∉ cs) :
    ∃ earlier later count, Drops cs (spansOf found) earlier later count := by
  induction h with
  | nil => exact ⟨[], [], 0, rfl, rfl, by simp, by simp [written], by simp⟩
  | @cons cs rest factor found hreads hrest ih =>
      obtain rfl := hreads.spelled
      rw [List.mem_append, not_or] at hline
      cases factor with
      | enclosed marker text =>
          rcases ih hline.2 with ⟨earlier, later, count, hdrops⟩
          have hcons := hdrops.cons (marker.span text)
          rw [marker.written_span, ← spansOf_enclosed] at hcons
          exact ⟨_, later, count, hcons⟩
      | plain text =>
          rcases ih hline.2 with ⟨earlier, later, count, hdrops⟩
          have hcons := hdrops.cons ⟨String.ofList text, false, false⟩
          rw [written_plain] at hcons
          exact ⟨_, later, count, hcons⟩
      | star =>
          -- here nothing but one or two asterisks and a text without any is left
          rcases exists_stars (ReadsFirst.not_mem_tail hreads hline.2) with
            ⟨count, after, hstars, hcount, hafter⟩
          have hfound := (Factorization.cons hreads hrest).unique (factorization_factors _)
          rcases exists_drops_stars hcount hafter with ⟨later, hdrops⟩
          rw [← hstars] at hdrops
          rw [hfound]
          exact ⟨[], later, count, hdrops⟩

theorem Factorization.readable {cs : List Char} {found : List Factor}
    (h : Factorization cs found) (hline : '\n' ∉ cs) : Readable (spansOf found) := by
  induction h with
  | nil => exact .nil
  | @cons cs rest factor found hreads hrest ih =>
      obtain rfl := hreads.spelled
      rw [List.mem_append, not_or] at hline
      cases factor with
      | enclosed marker text =>
          rcases hrest.exists_drops hline.2 with ⟨earlier, later, count, hdrops⟩
          rw [Factor.spelling, ← marker.written_span] at hreads
          rw [spansOf_enclosed]
          refine .emphasized (marker.marker?_span text) ?_ (ih hline.2)
          rw [marker.toList_text_span]
          exact hdrops.readsFirst hreads
      | plain text =>
          rcases readsFirst_run_iff.mp hreads with ⟨-, hne, hstar, -⟩
          refine .plain rfl ?_ ?_ (ih hline.2)
          · simpa using hne
          · simpa using hstar
      | star => exact ih hline.2

/-- Reading a line drops at most two asterisks, which are its last ones.  What is written back
without them is read as the same spans, with neighbouring plain spans joined. -/
theorem parse_drops (content : String) (hline : '\n' ∉ content.toList) :
    ∃ earlier later count, Drops content.toList (parse content) earlier later count ∧
      print (parse content) = String.ofList (written earlier ++ written later) ∧
      parse (print (parse content)) = joinPlain (parse content) := by
  have hparse : parse content = spansOf (factors content.toList) := filterMap_span? _
  have hfactorization := factorization_factors content.toList
  rcases hfactorization.exists_drops hline with ⟨earlier, later, count, hdrops⟩
  have hreadable := hfactorization.readable hline
  rw [← hparse] at hdrops hreadable
  refine ⟨earlier, later, count, hdrops, ?_, hreadable.parse_written⟩
  rw [print, hdrops.written_eq]

theorem parse_drops_pair :
    let content := "*x* a ** b"
    '\n' ∉ content.toList ∧
      (∃ earlier later count, Drops content.toList (parse content) earlier later count) ∧
      parse content = [⟨"x", false, true⟩, ⟨" a ", false, false⟩, ⟨" b", false, false⟩] ∧
      print (parse content) = "*x* a  b" ∧
      parse (print (parse content)) = [⟨"x", false, true⟩, ⟨" a  b", false, false⟩] := by
  intro content
  have hline : '\n' ∉ content.toList := by decide
  have hparse : parse content =
      [⟨"x", false, true⟩, ⟨" a ", false, false⟩, ⟨" b", false, false⟩] := by
    decide +kernel
  rcases parse_drops content hline with ⟨earlier, later, count, hdrops, -, hagain⟩
  rw [hagain, hparse]
  rw [hparse] at hdrops
  exact ⟨hline, ⟨earlier, later, count, hdrops⟩, rfl, by decide, by decide⟩

end Manuscript.Inline
