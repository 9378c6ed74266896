import Manuscript.Assembly
import Manuscript.Proofs.Wordprocessing.RoundTrip
import Manuscript.Stats
import Mathlib.Data.List.Forall2

/-!
# Styles leave the content alone

The roles of paragraphs and the texts of runs come from the source alone.  So a text has the same
content in every style: two documents of it differ in the look of their runs and in the alignment of
their body paragraphs, and whatever counts or reads texts cannot tell them apart.
-/

namespace Manuscript

open Wordprocessing (Progress documentXml events_documentXml paragraphTexts paragraphTexts_of_run)
open Xml (isLegal)

/-- Two runs of a paragraph with the given role that differ at most as styles make them differ. -/
structure Run.Restyled (role : Role) (run other : Run) : Prop where
  text : run.text = other.text
  italic : run.italic = other.italic
  bold : role ≠ .subtitle → run.bold = other.bold
  notUnderlined : role ≠ .subtitle → run.underline = false ∧ other.underline = false

structure Paragraph.Restyled (paragraph other : Paragraph) : Prop where
  role : paragraph.role = other.role
  runs : List.Forall₂ (Run.Restyled paragraph.role) paragraph.runs other.runs
  alignment : paragraph.role ≠ .body → paragraph.alignment = other.alignment

def Document.Restyled (document other : Document) : Prop :=
  List.Forall₂ Paragraph.Restyled document.paragraphs other.paragraphs

section

variable {paragraph restyled : Paragraph} {document other : Document}

theorem Paragraph.Restyled.texts (h : paragraph.Restyled restyled) :
    paragraph.runs.map Run.text = restyled.runs.map Run.text := by
  rw [← List.forall₂_eq_eq_eq, List.forall₂_map_left_iff, List.forall₂_map_right_iff]
  exact h.runs.imp fun _ _ hrun => hrun.text

theorem Paragraph.Restyled.plainText (h : paragraph.Restyled restyled) :
    paragraph.plainText = restyled.plainText := by
  rw [Paragraph.plainText, h.texts, Paragraph.plainText]

theorem Document.Restyled.plainTexts (h : document.Restyled other) :
    document.paragraphs.map Paragraph.plainText = other.paragraphs.map Paragraph.plainText := by
  rw [← List.forall₂_eq_eq_eq, List.forall₂_map_left_iff, List.forall₂_map_right_iff]
  exact List.Forall₂.imp (fun _ _ hparagraph => hparagraph.plainText) h

theorem Document.Restyled.plainText (h : document.Restyled other) :
    document.plainText = other.plainText := by
  rw [Document.plainText, h.plainTexts, Document.plainText]

theorem Stats.countParagraph_eq (stats : Stats) (paragraph : Paragraph) :
    stats.countParagraph paragraph =
      let texts := paragraph.runs.map Run.text
      let counted := stats.addParagraph paragraph.role
      texts.foldl countText { counted with runs := counted.runs + UInt32.ofNat texts.length } := by
  simp only [countParagraph, List.foldl_map, List.length_map]

theorem Stats.countParagraph_of_restyled (stats : Stats) (h : paragraph.Restyled restyled) :
    stats.countParagraph paragraph = stats.countParagraph restyled := by
  rw [Stats.countParagraph_eq, h.role, h.texts, ← Stats.countParagraph_eq]

theorem Stats.foldl_countParagraph {paragraphs others : List Paragraph}
    (h : List.Forall₂ Paragraph.Restyled paragraphs others) (stats : Stats) :
    paragraphs.foldl countParagraph stats = others.foldl countParagraph stats := by
  induction h generalizing stats with
  | nil => rfl
  | cons hparagraph _ ih =>
      rw [List.foldl_cons, List.foldl_cons, stats.countParagraph_of_restyled hparagraph]
      exact ih _

theorem Document.Restyled.stats (h : document.Restyled other) :
    Stats.ofDocument document = Stats.ofDocument other :=
  Stats.foldl_countParagraph h Stats.empty

/-- The texts that are read back depend neither on the look of a document nor on its font. -/
theorem Document.Restyled.paragraphTexts (h : document.Restyled other) (font otherFont : String) :
    paragraphTexts (documentXml font document) = paragraphTexts (documentXml otherFont other) := by
  have hlegal := congrArg (List.map fun text : String => text.toList.filter isLegal) h.plainTexts
  simp only [List.map_map, Function.comp_def] at hlegal
  rw [paragraphTexts_of_run (events_documentXml font document)
      (Progress.run_documentPieces font document),
    paragraphTexts_of_run (events_documentXml otherFont other)
      (Progress.run_documentPieces otherFont other), hlegal]

end

theorem RoleStyle.restyled_runs (first second : RoleStyle) {role : Role}
    {bold underline bold' underline' : Bool} (content : String)
    (h : role ≠ .subtitle → bold = bold' ∧ underline = false ∧ underline' = false) :
    List.Forall₂ (Run.Restyled role) (first.runs bold underline content)
      (second.runs bold' underline' content) := by
  rw [RoleStyle.runs, RoleStyle.runs, List.forall₂_map_left_iff, List.forall₂_map_right_iff,
    List.forall₂_same]
  intro span _
  refine ⟨rfl, rfl, ?_, ?_⟩
  · intro hrole
    simp only [RoleStyle.run, (h hrole).1]
  · intro hrole
    exact (h hrole).2

theorem Style.restyled_paragraph (first second : Style) (line : Line) :
    (first.paragraph line).Restyled (second.paragraph line) := by
  rcases line with ⟨kind, content⟩
  cases kind with
  | blank => exact ⟨rfl, .nil, fun _ => rfl⟩
  | heading level =>
      simp only [Style.paragraph]
      split
      · exact ⟨rfl, first.title.restyled_runs _ content fun _ => ⟨rfl, rfl, rfl⟩, fun _ => rfl⟩
      · exact ⟨rfl, first.subtitle.restyled_runs _ content fun hrole => absurd rfl hrole,
          fun _ => rfl⟩
  | paragraph =>
      refine ⟨rfl, first.body.restyled_runs _ content fun _ => ⟨rfl, rfl, rfl⟩, ?_⟩
      intro hrole
      exact absurd rfl hrole

/-- A text has the same paragraphs in every two styles, up to their look.  Its document says the
same, has the same statistics and is read back from its markup as the same texts. -/
theorem Style.restyled_document (first second : Style) (text : String) :
    let document := first.document text
    let other := second.document text
    document.Restyled other ∧ document.plainText = other.plainText ∧
      Stats.ofDocument document = Stats.ofDocument other ∧
      paragraphTexts (documentXml first.fontFamily document) =
        paragraphTexts (documentXml second.fontFamily other) := by
  intro document other
  have hrestyled : document.Restyled other := by
    simp only [document, other, Document.Restyled, Style.document]
    rw [List.forall₂_map_left_iff, List.forall₂_map_right_iff, List.forall₂_same]
    intro line _
    exact first.restyled_paragraph second line
  exact ⟨hrestyled, hrestyled.plainText, hrestyled.stats, hrestyled.paragraphTexts _ _⟩

end Manuscript
