import Manuscript.Proofs.Xml.Distinct

/-!
# Entities of escaped text

Escaping writes four entities, and no ampersand but theirs.  So a single pass that replaces them
cannot be misled by the text around them, not even by a text that looks escaped already, and gives
back the text without what XML forbids.  A text may be escaped in parts, and two texts are escaped
alike exactly if they have the same legal characters.
-/

namespace Manuscript.Xml

structure Entity where
  written : List Char
  meant : Char
  deriving DecidableEq, Repr

def entities : List Entity :=
  [⟨"&amp;".toList, '&'⟩, ⟨"&lt;".toList, '<'⟩, ⟨"&gt;".toList, '>'⟩, ⟨"&quot;".toList, '\x22'⟩]

def entityAt? (cs : List Char) : Option Entity :=
  entities.find? (·.written.isPrefixOf cs)

/-- Replaces the entities of a text in one pass from left to right.  What an entity stands for is
not looked at again. -/
def replaceEntities : List Char → List Char
  | [] => []
  | c :: cs =>
    match entityAt? (c :: cs) with
    | some entity => entity.meant :: replaceEntities (cs.drop (entity.written.length - 1))
    | none => c :: replaceEntities cs
termination_by cs => cs.length

theorem exists_written {entity : Entity} (h : entity ∈ entities) :
    ∃ name, entity.written = '&' :: (name ++ [';']) ∧ '&' ∉ name := by
  simp only [entities, List.mem_cons, List.not_mem_nil, or_false] at h
  rcases h with rfl | rfl | rfl | rfl
  · exact ⟨['a', 'm', 'p'], by simp⟩
  · exact ⟨['l', 't'], by simp⟩
  · exact ⟨['g', 't'], by simp⟩
  · exact ⟨['q', 'u', 'o', 't'], by simp⟩

theorem entityAt?_append {entity : Entity} (h : entity ∈ entities) (rest : List Char) :
    entityAt? (entity.written ++ rest) = some entity := by
  simp only [entities, List.mem_cons, List.not_mem_nil, or_false] at h
  rcases h with rfl | rfl | rfl | rfl <;> simp [entityAt?, entities]

theorem entityAt?_cons_of_ne {c : Char} (h : c ≠ '&') (rest : List Char) :
    entityAt? (c :: rest) = none := by
  rw [entityAt?, List.find?_eq_none]
  intro entity hentity
  obtain ⟨name, hwritten, -⟩ := exists_written hentity
  simp [hwritten, h.symm]

theorem replaceEntities_append {entity : Entity} (h : entity ∈ entities) (rest : List Char) :
    replaceEntities (entity.written ++ rest) = entity.meant :: replaceEntities rest := by
  have hat := entityAt?_append h rest
  obtain ⟨name, hwritten, -⟩ := exists_written h
  rw [hwritten, List.cons_append] at hat ⊢
  rw [replaceEntities, hat]
  simp [hwritten]

theorem replaceEntities_cons_of_ne {c : Char} (h : c ≠ '&') (rest : List Char) :
    replaceEntities (c :: rest) = c :: replaceEntities rest := by
  rw [replaceEntities, entityAt?_cons_of_ne h]

theorem escapeChar_meant {entity : Entity} (h : entity ∈ entities) :
    escapeChar entity.meant = entity.written ∧ isLegal entity.meant = true := by
  simp only [entities, List.mem_cons, List.not_mem_nil, or_false] at h
  rcases h with rfl | rfl | rfl | rfl <;> simp [escapeChar, isLegal]

theorem escapeChar_eq (c : Char) :
    (∃ entity ∈ entities, entity.meant = c ∧ escapeChar c = entity.written ∧ isLegal c = true) ∨
      (c ≠ '&' ∧ escapeChar c = [c] ∧ isLegal c = true) ∨
      (escapeChar c = [] ∧ isLegal c = false) := by
  by_cases hentity : ∃ entity ∈ entities, entity.meant = c
  · obtain ⟨entity, hmem, rfl⟩ := hentity
    exact .inl ⟨entity, hmem, rfl, escapeChar_meant hmem⟩
  · have hnone : c ≠ '&' ∧ c ≠ '<' ∧ c ≠ '>' ∧ c ≠ '\x22' := by
      simpa [entities, eq_comm] using hentity
    have hescape : escapeChar c = if isLegal c then [c] else [] := by
      simp [escapeChar, hnone, isAllowed_eq_isLegal]
    right
    cases hlegal : isLegal c with
    | true => exact .inl ⟨hnone.1, by simp [hescape, hlegal], rfl⟩
    | false => exact .inr ⟨by simp [hescape, hlegal], rfl⟩

theorem isLegal_of_mem_written {entity : Entity} (h : entity ∈ entities) :
    ∀ d ∈ entity.written, isLegal d = true := by
  simp only [entities, List.mem_cons, List.not_mem_nil, or_false] at h
  rcases h with rfl | rfl | rfl | rfl <;> simp [isLegal]

theorem isLegal_of_mem_escapeChars {d : Char} {cs : List Char} (h : d ∈ escapeChars cs) :
    isLegal d = true := by
  obtain ⟨c, -, hd⟩ := List.mem_flatMap.mp h
  rcases escapeChar_eq c with ⟨entity, hentity, -, hescape, -⟩ | ⟨-, hescape, hlegal⟩ |
    ⟨hescape, -⟩
  · rw [hescape] at hd
    exact isLegal_of_mem_written hentity d hd
  · rw [hescape, List.mem_singleton] at hd
    rw [hd, hlegal]
  · simp [hescape] at hd

theorem replaceEntities_escapeChars (cs : List Char) :
    replaceEntities (escapeChars cs) = cs.filter isLegal := by
  induction cs with
  | nil => simp [replaceEntities]
  | cons c cs ih =>
      rw [escapeChars_cons]
      rcases escapeChar_eq c with ⟨entity, hentity, hmeant, hescape, hlegal⟩ |
        ⟨hamp, hescape, hlegal⟩ | ⟨hescape, hlegal⟩
      · rw [hescape, replaceEntities_append hentity, ih, hmeant, List.filter_cons_of_pos hlegal]
      · rw [hescape, List.singleton_append, replaceEntities_cons_of_ne hamp, ih,
          List.filter_cons_of_pos hlegal]
      · rw [hescape, List.nil_append, ih, List.filter_cons_of_neg (by simp [hlegal])]

theorem written_of_escapeChar {c : Char} {front inside : List Char}
    (h : escapeChar c = front ++ '&' :: inside) :
    ∃ entity ∈ entities, entity.written = '&' :: inside := by
  rcases escapeChar_eq c with ⟨entity, hentity, -, hescape, -⟩ | ⟨hamp, hescape, -⟩ |
    ⟨hescape, -⟩
  · obtain ⟨name, hwritten, hname⟩ := exists_written hentity
    refine ⟨entity, hentity, ?_⟩
    rw [hescape, hwritten] at h
    cases front with
    | nil => rw [hwritten, h, List.nil_append]
    | cons d front =>
        have hmem : '&' ∈ name ++ [';'] := by
          rw [(List.cons.inj h).2]
          simp
        simp [hname] at hmem
  · rw [hescape] at h
    cases front with
    | nil => exact absurd (List.cons.inj h).1 hamp
    | cons d front => simp at h
  · simp [hescape] at h

theorem exists_written_prefix {cs rest : List Char} (h : '&' :: rest <:+ escapeChars cs) :
    ∃ entity ∈ entities, entity.written <+: '&' :: rest := by
  induction cs with
  | nil => simp at h
  | cons c cs ih =>
      obtain ⟨front, hfront⟩ := h
      rw [escapeChars_cons, List.append_eq_append_iff] at hfront
      rcases hfront with ⟨inside, hescape, hrest⟩ | ⟨before, -, htail⟩
      · cases inside with
        | nil => exact ih (hrest ▸ List.suffix_refl _)
        | cons d inside =>
            obtain ⟨rfl, rfl⟩ := List.cons.inj hrest
            obtain ⟨entity, hentity, hwritten⟩ := written_of_escapeChar hescape
            exact ⟨entity, hentity, hwritten ▸ List.prefix_append _ _⟩
      · exact ih ⟨before, htail.symm⟩

theorem toList_escape (s : String) : (escape s).toList = escapeChars s.toList :=
  String.toList_ofList

theorem escape_eq_iff (s t : String) : escape s = escape t ↔ legal s = legal t := by
  rw [← String.toList_inj, toList_escape, toList_escape, escapeChars_eq_iff]

/-- Escaped text holds legal characters only, no markup, and no ampersand that does not begin one of
the four entities.  Replacing these in one pass gives back the legal characters of the text.
Escaping goes through a text part by part, and tells two texts apart exactly if they differ in legal
characters. -/
theorem replaceEntities_escape (s t : String) :
    (∀ c ∈ (escape s).toList, isLegal c = true ∧ c ≠ '<' ∧ c ≠ '>' ∧ c ≠ '\x22') ∧
      (∀ rest, '&' :: rest <:+ (escape s).toList →
        ∃ entity ∈ entities, entity.written <+: '&' :: rest) ∧
      replaceEntities (escape s).toList = s.toList.filter isLegal ∧
      escape (s ++ t) = escape s ++ escape t ∧
      (escape s = escape t ↔ legal s = legal t) := by
  refine ⟨?_, ?_, ?_, ?_, escape_eq_iff s t⟩
  · intro c hc
    rw [toList_escape] at hc
    have hplain := isDelimiter_of_mem_escapeChars hc
    simp only [isDelimiter, Bool.or_eq_false_iff, beq_eq_false_iff_ne] at hplain
    exact ⟨isLegal_of_mem_escapeChars hc, hplain.1.1, hplain.1.2, hplain.2⟩
  · intro rest hrest
    rw [toList_escape] at hrest
    exact exists_written_prefix hrest
  · rw [toList_escape, replaceEntities_escapeChars]
  · rw [← String.toList_inj, String.toList_append, toList_escape, toList_escape, toList_escape,
      String.toList_append, escapeChars_append]

example : escape "a &amp; \x01<b>" = "a &amp;amp; &lt;b&gt;" ∧
    replaceEntities "a &amp;amp; &lt;b&gt;".toList = "a &amp; <b>".toList := by
  refine ⟨by decide, ?_⟩
  simp [replaceEntities, entityAt?, entities]

end Manuscript.Xml
