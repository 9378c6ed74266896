import Manuscript.Proofs.Line.Grammar

/-!
# Classified lines written back

A classified line has a source line of its own: nothing, its marks with a single space and its
content, or its content alone.  No content ends in space, and that of a heading does not begin with
space either, so this source line is classified as the same line.
-/

namespace Manuscript.Line

open Text

def print (line : Line) : String :=
  match line.kind with
  | .blank => ""
  | .heading level =>
    String.ofList (List.replicate level.toNat '#' ++ [' '] ++ line.content.toList)
  | .paragraph => line.content

section

variable {cs space content : List Char}

theorem rdropWhile_append_eq_iff {front : List Char} (hne : content ≠ []) :
    (front ++ content).rdropWhile isSpacing = front ++ content ↔
      content.rdropWhile isSpacing = content := by
  rw [List.rdropWhile_eq_self_iff, List.rdropWhile_eq_self_iff]
  constructor
  · intro h _
    have hlast := h (List.append_ne_nil_of_right_ne_nil front hne)
    rwa [List.getLast_append_of_right_ne_nil front content hne] at hlast
  · intro h _
    rw [List.getLast_append_of_right_ne_nil front content hne]
    exact h hne

theorem IsHeading.trimmed {level : Nat} (h : IsHeading cs level space content)
    (hcs : cs.rdropWhile isSpacing = cs) : content.rdropWhile isSpacing = content := by
  rw [h.spelled] at hcs
  exact (rdropWhile_append_eq_iff h.content_ne_nil).mp hcs

theorem IsHeading.printed {level : Nat} (h : IsHeading cs level space content) :
    IsHeading (List.replicate level '#' ++ [' '] ++ content) level [' '] content := by
  have hblank : isSpacing ' ' = true := by decide
  exact ⟨rfl, h.one_le, h.le_six, by simp, by simp [hblank], h.content_ne_nil, h.begins, h.oneLine⟩

end

theorem isSpacing_getLast?_of_trimmed {cs : List Char} (h : cs.rdropWhile isSpacing = cs) :
    ∀ c ∈ cs.getLast?, isSpacing c = false := by
  intro c hc
  rcases List.getLast?_eq_some_iff.mp hc with ⟨front, rfl⟩
  have hlast := List.rdropWhile_eq_self_iff.mp h (by simp)
  simpa using hlast

theorem classify_print (line : String) : classify (print (classify line)) = classify line := by
  have htrimmed := rdropWhile_trimmed line
  have hclassified := classified_classify line
  generalize classify line = result at hclassified
  generalize trimmed line = cs at htrimmed hclassified
  cases hclassified with
  | blank => exact (Classified.blank rfl).classify rfl
  | @heading level space content h =>
      have hprinted : (print ⟨.heading (UInt8.ofNat level), String.ofList content⟩).toList =
          List.replicate level '#' ++ [' '] ++ content := by
        rw [print, String.toList_ofList, String.toList_ofList, h.toNat_ofNat]
      apply (Classified.heading h.printed).classify
      rw [trimmed, hprinted]
      exact (rdropWhile_append_eq_iff h.content_ne_nil).mpr (h.trimmed htrimmed)
  | paragraph hne hnone =>
      apply (Classified.paragraph hne hnone).classify
      rw [trimmed, print, String.toList_ofList, htrimmed]

theorem not_mem_print {line : String} (h : '\n' ∉ line.toList) :
    '\n' ∉ (print (classify line)).toList := by
  have hclassified := classified_classify line
  have htrimmed : '\n' ∉ trimmed line := by
    intro hmem
    exact h ((List.rdropWhile_prefix _ _).subset hmem)
  cases hkind : classify line with | mk kind content =>
  rw [hkind] at hclassified
  cases hclassified with
  | blank => simp [print]
  | heading hheading => simp [print, hheading.oneLine]
  | paragraph => simpa [print] using htrimmed

/-- The lines of a text, written back one by one, are the lines of what is written.  In particular a
paragraph is the line of its own content, and the content of a heading has no space around it. -/
theorem ofText_printed (text : String) :
    ofText (unlines ((ofText text).map print)) = ofText text ∧
      (∀ line, (classify line).kind = .paragraph →
        classify (classify line).content = classify line) ∧
      ∀ line level, (classify line).kind = .heading level →
        (∀ c ∈ (classify line).content.toList.head?, isSpacing c = false) ∧
        ∀ c ∈ (classify line).content.toList.getLast?, isSpacing c = false := by
  refine ⟨?_, ?_, ?_⟩
  · have hlines : lines (unlines ((ofText text).map print)) = (ofText text).map print := by
      apply lines_unlines
      · simp [ofText, lines_ne_nil]
      · simp only [ofText, List.map_map, List.mem_map]
        rintro s ⟨line, hline, rfl⟩
        exact not_mem_print (not_mem_of_mem_lines hline)
    rw [ofText, hlines, ofText, List.map_map, List.map_map]
    apply List.map_congr_left
    intro line _
    exact classify_print line
  · intro line hparagraph
    have hagain := classify_print line
    rwa [print, hparagraph] at hagain
  · intro line level hheading
    have htrimmed := rdropWhile_trimmed line
    have hclassified := classified_classify line
    cases hline : classify line with | mk kind content =>
    rw [hline] at hclassified hheading
    cases hclassified with
    | blank | paragraph => cases hheading
    | heading h =>
        simp only [String.toList_ofList]
        exact ⟨h.begins, isSpacing_getLast?_of_trimmed (h.trimmed htrimmed)⟩

theorem ofText_printed_spaced :
    let text := "##\t a \n# \n b"
    unlines ((ofText text).map print) = "## a\n#\n b" ∧ ofText "## a\n#\n b" = ofText text ∧
      (classify "# ").kind = .paragraph ∧ classify (classify "# ").content = classify "# " := by
  intro text
  have hprinted : unlines ((ofText text).map print) = "## a\n#\n b" := by decide +kernel
  have hmark : (classify "# ").kind = .paragraph := by decide +kernel
  obtain ⟨hlines, hparagraphs, -⟩ := ofText_printed text
  rw [hprinted] at hlines
  exact ⟨hprinted, hlines, hmark, hparagraphs "# " hmark⟩

end Manuscript.Line
