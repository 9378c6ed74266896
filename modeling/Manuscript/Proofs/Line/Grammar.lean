import Manuscript.Proofs.SourceText

/-!
# The grammar of source lines

Without the space at its end, a line is nothing, a heading, or a paragraph as it stands.  A heading
is one to six number signs, some space, and a content on one line that does not begin with space;
the space before the content may hold line feeds.  A line is a heading in at most one way.
-/

namespace Manuscript.Line

open Text

def trimmed (line : String) : List Char :=
  line.toList.rdropWhile isSpacing

theorem rdropWhile_trimmed (line : String) :
    (trimmed line).rdropWhile isSpacing = trimmed line :=
  List.rdropWhile_idempotent isSpacing line.toList

/-- The characters are number signs, some space and a content. -/
structure IsHeading (cs : List Char) (level : Nat) (space content : List Char) : Prop where
  spelled : cs = List.replicate level '#' ++ space ++ content
  one_le : 1 ≤ level
  le_six : level ≤ 6
  space_ne_nil : space ≠ []
  spacing : ∀ c ∈ space, isSpacing c
  content_ne_nil : content ≠ []
  begins : ∀ c ∈ content.head?, isSpacing c = false
  oneLine : '\n' ∉ content

section

variable {p : Char → Bool} {inside rest : List Char}

theorem takeWhile_append_of_head (hinside : ∀ c ∈ inside, p c)
    (hrest : ∀ c ∈ rest.head?, p c = false) : (inside ++ rest).takeWhile p = inside := by
  rw [List.takeWhile_append_of_pos hinside]
  cases rest with
  | nil => simp
  | cons c rest => simp [hrest c rfl]

theorem dropWhile_append_of_head (hinside : ∀ c ∈ inside, p c)
    (hrest : ∀ c ∈ rest.head?, p c = false) : (inside ++ rest).dropWhile p = rest := by
  rw [List.dropWhile_append_of_pos hinside]
  cases rest with
  | nil => rfl
  | cons c rest => simp [hrest c rfl]

end

theorem takeWhile_mark (cs : List Char) :
    cs.takeWhile (· == '#') = List.replicate (cs.takeWhile (· == '#')).length '#' := by
  rw [List.eq_replicate_iff]
  exact ⟨rfl, fun c hc => by simpa using List.mem_takeWhile_imp hc⟩

section

variable {cs space content : List Char} {level : Nat}

theorem IsHeading.head?_space (h : IsHeading cs level space content) :
    ∀ c ∈ (space ++ content).head?, (c == '#') = false := by
  rcases List.exists_cons_of_ne_nil h.space_ne_nil with ⟨first, space, rfl⟩
  intro c hc
  obtain rfl : first = c := by simpa using hc
  have hspacing := h.spacing first (by simp)
  rw [beq_eq_false_iff_ne]
  rintro rfl
  exact absurd hspacing (by decide)

theorem IsHeading.takeWhile_mark (h : IsHeading cs level space content) :
    cs.takeWhile (· == '#') = List.replicate level '#' := by
  rw [h.spelled, List.append_assoc]
  exact takeWhile_append_of_head (by simp) h.head?_space

theorem IsHeading.dropWhile_mark (h : IsHeading cs level space content) :
    cs.dropWhile (· == '#') = space ++ content := by
  rw [h.spelled, List.append_assoc]
  exact dropWhile_append_of_head (by simp) h.head?_space

theorem IsHeading.dropWhile_space (h : IsHeading cs level space content) :
    (space ++ content).dropWhile isSpacing = content :=
  dropWhile_append_of_head h.spacing h.begins

theorem heading?_of_isHeading (h : IsHeading cs level space content) :
    heading? cs = some (level, content) := by
  have hshorter : content.length < (space ++ content).length := by
    rw [List.length_append]
    have := List.length_pos_iff.mpr h.space_ne_nil
    omega
  simp only [heading?, h.takeWhile_mark, h.dropWhile_mark, h.dropWhile_space,
    List.length_replicate]
  rw [if_pos ⟨h.one_le, h.le_six, hshorter, h.content_ne_nil, h.oneLine⟩]

theorem isHeading_of_heading? (h : heading? cs = some (level, content)) :
    ∃ space, IsHeading cs level space content := by
  simp only [heading?] at h
  split at h
  · rename_i hheading
    rcases hheading with ⟨hone, hsix, hshorter, hne, hline⟩
    rcases Prod.mk.inj (Option.some.inj h) with ⟨rfl, rfl⟩
    refine ⟨(cs.dropWhile (· == '#')).takeWhile isSpacing, ?_, hone, hsix, ?_, ?_, hne, ?_, hline⟩
    · rw [← takeWhile_mark, List.append_assoc, List.takeWhile_append_dropWhile,
        List.takeWhile_append_dropWhile]
    · intro hnil
      have hall := List.takeWhile_append_dropWhile (p := isSpacing)
        (l := cs.dropWhile (· == '#'))
      rw [hnil, List.nil_append] at hall
      rw [hall] at hshorter
      exact Nat.lt_irrefl _ hshorter
    · intro c hc
      exact List.mem_takeWhile_imp hc
    · intro c hc
      have hnot := List.head?_dropWhile_not isSpacing (cs.dropWhile (· == '#'))
      rw [Option.mem_def.mp hc] at hnot
      exact hnot
  · simp at h

theorem IsHeading.unique {level' : Nat} {space' content' : List Char}
    (h : IsHeading cs level space content) (h' : IsHeading cs level' space' content') :
    level = level' ∧ space = space' ∧ content = content' := by
  have hheading := (heading?_of_isHeading h).symm.trans (heading?_of_isHeading h')
  rcases Prod.mk.inj (Option.some.inj hheading) with ⟨rfl, rfl⟩
  have hspelled := h.spelled.symm.trans h'.spelled
  rw [List.append_left_inj, List.append_right_inj] at hspelled
  exact ⟨rfl, hspelled, rfl⟩

theorem IsHeading.ne_nil (h : IsHeading cs level space content) : cs ≠ [] := by
  rw [h.spelled]
  simp [h.content_ne_nil]

theorem IsHeading.toNat_ofNat (h : IsHeading cs level space content) :
    (UInt8.ofNat level).toNat = level := by
  have := h.le_six
  simp only [UInt8.toNat_ofNat']
  omega

end

/-! ## Kinds of lines -/

inductive Classified (cs : List Char) : Line → Prop
  | blank : cs = [] → Classified cs ⟨.blank, ""⟩
  | heading {level : Nat} {space content : List Char} : IsHeading cs level space content →
      Classified cs ⟨.heading (UInt8.ofNat level), String.ofList content⟩
  | paragraph : cs ≠ [] → (∀ level space content, ¬ IsHeading cs level space content) →
      Classified cs ⟨.paragraph, String.ofList cs⟩

theorem exists_classified (cs : List Char) : ∃ result, Classified cs result := by
  by_cases hnil : cs = []
  · exact ⟨_, .blank hnil⟩
  by_cases hheading : ∃ level space content, IsHeading cs level space content
  · rcases hheading with ⟨level, space, content, h⟩
    exact ⟨_, .heading h⟩
  · simp only [not_exists] at hheading
    exact ⟨_, .paragraph hnil hheading⟩

theorem Classified.classify {cs : List Char} {result : Line} (h : Classified cs result)
    {line : String} (hcs : trimmed line = cs) : classify line = result := by
  rw [Line.classify, trimEnd_eq_rdropWhile, ← trimmed, hcs]
  cases h with
  | blank hnil => rw [hnil]
  | heading hheading =>
      rcases List.exists_cons_of_ne_nil hheading.ne_nil with ⟨c, cs, rfl⟩
      simp only [heading?_of_isHeading hheading]
  | paragraph hne hnone =>
      have hheading : heading? cs = none := by
        rw [Option.eq_none_iff_forall_ne_some]
        rintro ⟨level, content⟩ hsome
        rcases isHeading_of_heading? hsome with ⟨space, h⟩
        exact hnone level space content h
      rcases List.exists_cons_of_ne_nil hne with ⟨c, cs, rfl⟩
      simp only [hheading]

theorem classified_classify (line : String) : Classified (trimmed line) (classify line) := by
  rcases exists_classified (trimmed line) with ⟨result, h⟩
  rw [h.classify rfl]
  exact h

/-- Without the space at its end, a line is blank exactly if nothing is left, a heading exactly if
it is one by the grammar, and otherwise a paragraph with all that is left as its content. -/
theorem classify_grammar (line : String) :
    (classify line = ⟨.blank, ""⟩ ↔ trimmed line = []) ∧
      (∀ level content, classify line = ⟨.heading level, content⟩ ↔
        ∃ space, IsHeading (trimmed line) level.toNat space content.toList) ∧
      (classify line = ⟨.paragraph, String.ofList (trimmed line)⟩ ↔
        trimmed line ≠ [] ∧ ∀ level space content, ¬ IsHeading (trimmed line) level space content) ∧
      ∀ level level' space space' content content',
        IsHeading (trimmed line) level space content →
        IsHeading (trimmed line) level' space' content' →
        level = level' ∧ space = space' ∧ content = content' := by
  have hclassified := classified_classify line
  refine ⟨⟨?_, fun hnil => (Classified.blank hnil).classify rfl⟩, ?_,
    ⟨?_, fun ⟨hne, hnone⟩ => (Classified.paragraph hne hnone).classify rfl⟩, ?_⟩
  · intro hblank
    rw [hblank] at hclassified
    cases hclassified with
    | blank hnil => exact hnil
  · intro level content
    constructor
    · intro hheading
      rw [hheading] at hclassified
      cases hclassified with
      | @heading _ space content h =>
          rw [h.toNat_ofNat, String.toList_ofList]
          exact ⟨space, h⟩
    · rintro ⟨space, h⟩
      rw [(Classified.heading h).classify rfl, UInt8.ofNat_toNat, String.ofList_toList]
  · intro hparagraph
    rw [hparagraph] at hclassified
    generalize String.ofList (trimmed line) = content at hclassified
    cases hclassified with
    | paragraph hne hnone => exact ⟨hne, hnone⟩
  · intro level level' space space' content content' h h'
    exact h.unique h'

theorem classify_grammar_feed :
    let line := "##\n x\x1f"
    IsHeading (trimmed line) (2 : UInt8).toNat ['\n', ' '] "x".toList ∧
      classify line = ⟨.heading 2, "x"⟩ := by
  intro line
  have htrimmed : trimmed line = "##\n x".toList := by decide
  have hheading : IsHeading (trimmed line) (2 : UInt8).toNat ['\n', ' '] "x".toList := by
    have hfeed : isSpacing '\n' = true := by decide
    have hblank : isSpacing ' ' = true := by decide
    have hletter : isSpacing 'x' = false := by decide
    rw [htrimmed]
    refine ⟨by decide, by decide, by decide, by decide, ?_, by decide, ?_, by decide⟩
    · simp [hfeed, hblank]
    · simp [hletter]
  exact ⟨hheading, ((classify_grammar line).2.1 2 "x").mpr ⟨_, hheading⟩⟩

end Manuscript.Line
