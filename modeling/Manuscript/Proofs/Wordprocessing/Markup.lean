import Manuscript.Proofs.Xml.WellFormed
import Manuscript.Wordprocessing.Markup
import Manuscript.Wordprocessing.Reading

/-!
# The markup of a document is well-formed

Writing runs, paragraphs or a body leaves the open elements as they were, whatever the texts,
the font and the properties are.
-/

namespace Manuscript.Wordprocessing

open Xml (Piece hasNames isWellFormed isWellFormed_empties)

theorem mem_runProperties {font : String} {run : Run} {piece : Piece}
    (h : piece ∈ runProperties font run) :
    ∃ name attributes, piece = .empty name attributes ∧ hasNames name attributes = true ∧
      meaning name.toList = .nothing := by
  simp only [runProperties, valued, List.cons_append, List.mem_cons, List.mem_append,
    List.mem_ite_nil_right, List.not_mem_nil, or_false] at h
  rcases h with rfl | ((⟨-, rfl | rfl⟩ | ⟨-, rfl | rfl⟩) | rfl | rfl | rfl) | ⟨-, rfl⟩ <;>
    refine ⟨_, _, rfl, ?_, rfl⟩ <;>
    simp only [hasNames, List.all_cons, List.all_nil] <;>
    rfl

theorem isWellFormed_runProperties (opened : List String) (font : String) (run : Run)
    (rest : List Piece) :
    isWellFormed opened false (runProperties font run ++ rest) =
      isWellFormed opened false rest := by
  apply isWellFormed_empties
  intro piece hpiece
  obtain ⟨name, attributes, heq, hnames, -⟩ := mem_runProperties hpiece
  exact ⟨name, attributes, heq, hnames⟩

theorem isWellFormed_runPieces (opened : List String) (font : String) (run : Run)
    (rest : List Piece) :
    isWellFormed opened false (runPieces font run ++ rest) = isWellFormed opened false rest := by
  simp only [runPieces, List.append_assoc, List.cons_append, List.nil_append]
  exact isWellFormed_runProperties ("w:rPr" :: "w:r" :: opened) font run _

theorem isWellFormed_runs (opened : List String) (font : String) (runs : List Run)
    (rest : List Piece) :
    isWellFormed opened false (runs.flatMap (runPieces font) ++ rest) =
      isWellFormed opened false rest := by
  induction runs with
  | nil => rfl
  | cons run runs ih =>
      rw [List.flatMap_cons, List.append_assoc, isWellFormed_runPieces, ih]

theorem hasNames_justification (value : String) :
    hasNames "w:jc" [⟨"w:val", value⟩] = true := by
  simp only [hasNames, List.all_cons, List.all_nil]
  rfl

theorem isWellFormed_paragraphPieces (opened : List String) (font : String)
    (paragraph : Paragraph) (rest : List Piece) :
    isWellFormed opened false (paragraphPieces font paragraph ++ rest) =
      isWellFormed opened false rest := by
  have hruns := isWellFormed_runs ("w:p" :: opened) font paragraph.runs (.finish "w:p" :: rest)
  have hopen := hasNames_justification paragraph.alignment.keyword
  simp only [paragraphPieces, valued, List.append_assoc, List.cons_append, List.nil_append]
  change (hasNames "w:jc" [⟨"w:val", _⟩] && isWellFormed ("w:p" :: opened) false _) = _
  rw [hopen, hruns]
  rfl

theorem isWellFormed_bodyPieces (opened : List String) (font : String) (document : Document)
    (rest : List Piece) :
    isWellFormed opened false (bodyPieces font document ++ rest) =
      isWellFormed opened false rest := by
  unfold bodyPieces
  induction document.paragraphs with
  | nil => rfl
  | cons paragraph paragraphs ih =>
      rw [List.flatMap_cons, List.append_assoc, isWellFormed_paragraphPieces, ih]

theorem isWellFormed_documentPieces (font : String) (document : Document) :
    isWellFormed [] true (documentPieces font document) = true := by
  simp only [documentPieces, List.cons_append, List.nil_append]
  exact isWellFormed_bodyPieces ["w:body", "w:document"] font document
    [.finish "w:body", .finish "w:document"]

end Manuscript.Wordprocessing
