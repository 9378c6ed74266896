import Manuscript.Proofs.Assembly
import Manuscript.Proofs.Wordprocessing.Body

/-!
# Texts put together

Nothing is carried over from one line to the next.  So a document may be assembled in any number of
steps, and the document of two texts, one after the other, is that of the first and then that of the
second.
-/

namespace Manuscript

open Text (lines)
open Wordprocessing (bodyMarkup? bodyMarkup?_append documentXml)

namespace Assembly

/-- A step of an assembly: it takes one line, or several of them. -/
inductive Step where
  | push (line : Line)
  | extend (lines : List Line)

def Step.lines : Step → List Line
  | .push line => [line]
  | .extend lines => lines

def perform (assembly : Assembly) : Step → Assembly
  | .push line => assembly.push line
  | .extend lines => assembly.extend lines

def performAll (assembly : Assembly) (steps : List Step) : Assembly :=
  steps.foldl perform assembly

theorem style_extend (assembly : Assembly) (source : List Line) :
    (assembly.extend source).style = assembly.style := by
  induction source generalizing assembly with
  | nil => rfl
  | cons line source ih => exact ih (assembly.push line)

theorem style_perform (assembly : Assembly) (step : Step) :
    (assembly.perform step).style = assembly.style := by
  cases step with
  | push line => rfl
  | extend source => exact assembly.style_extend source

theorem paragraphs_perform (assembly : Assembly) (step : Step) :
    (assembly.perform step).document.paragraphs =
      assembly.document.paragraphs ++ step.lines.map assembly.style.paragraph := by
  cases step with
  | push line => rfl
  | extend source => exact assembly.paragraphs_extend source

/-- After any number of steps there is a paragraph for every line that has been taken. -/
theorem paragraphs_performAll (assembly : Assembly) (steps : List Step) :
    (assembly.performAll steps).document.paragraphs =
      assembly.document.paragraphs ++
        (steps.flatMap Step.lines).map assembly.style.paragraph := by
  induction steps generalizing assembly with
  | nil => simp [performAll]
  | cons step steps ih =>
      have hrest := ih (assembly.perform step)
      rw [style_perform, paragraphs_perform] at hrest
      rw [List.flatMap_cons, List.map_append, ← List.append_assoc, ← hrest]
      rfl

/-- A new assembly, with or without a number of lines that is expected. -/
inductive IsNew (style : Style) : Assembly → Prop
  | start : IsNew style (start style)
  | startExpecting (count : Nat) : IsNew style (startExpecting style count)

theorem IsNew.eq_start {style : Style} {assembly : Assembly} (h : IsNew style assembly) :
    assembly = Assembly.start style := by
  cases h with
  | start => rfl
  | startExpecting count => rfl

theorem size_performAll_start (style : Style) (steps : List Step) :
    ((start style).performAll steps).size = (steps.flatMap Step.lines).length := by
  rw [size, Document.paragraphCount, paragraphs_performAll, List.length_append, List.length_map]
  exact Nat.zero_add _

theorem document_performAll_start (style : Style) (steps : List Step) {text : String}
    (h : steps.flatMap Step.lines = Line.ofText text) :
    ((start style).performAll steps).document = style.document text := by
  have hparagraphs := (start style).paragraphs_performAll steps
  rw [h] at hparagraphs
  exact congrArg Document.mk hparagraphs

end Assembly

theorem Line.ofText_append_feed (first second : String) :
    Line.ofText (first ++ "\n" ++ second) = Line.ofText first ++ Line.ofText second := by
  rw [Line.ofText, Text.lines_append_feed, List.map_append]
  rfl

theorem Style.paragraphs_document_append (style : Style) (first second : String) :
    (style.document (first ++ "\n" ++ second)).paragraphs =
      (style.document first).paragraphs ++ (style.document second).paragraphs := by
  simp only [Style.document, Line.ofText_append_feed, List.map_append]

/-- Two texts with a line feed between them become the paragraphs, and the body, of the first and
then of the second.  In whatever steps an assembly takes the lines of a text, it always has as many
paragraphs as it has taken lines, and in the end it holds the document of the text. -/
theorem Style.document_joined (style : Style) (first second : String) :
    let joined := style.document (first ++ "\n" ++ second)
    joined.paragraphs = (style.document first).paragraphs ++ (style.document second).paragraphs ∧
      (∃ body otherBody,
        bodyMarkup? (documentXml style.fontFamily (style.document first)) = some body ∧
        bodyMarkup? (documentXml style.fontFamily (style.document second)) = some otherBody ∧
        bodyMarkup? (documentXml style.fontFamily joined) = some (body ++ otherBody)) ∧
      ∀ (text : String) (steps : List Assembly.Step) (assembly : Assembly),
        Assembly.IsNew style assembly → steps.flatMap Assembly.Step.lines = Line.ofText text →
        (∀ count, (assembly.performAll (steps.take count)).size =
          ((steps.take count).flatMap Assembly.Step.lines).length) ∧
        (assembly.performAll steps).document = style.document text := by
  intro joined
  have hparagraphs := style.paragraphs_document_append first second
  refine ⟨hparagraphs, ?_, ?_⟩
  · have hjoined : joined =
        ⟨(style.document first).paragraphs ++ (style.document second).paragraphs⟩ :=
      congrArg Document.mk hparagraphs
    rw [hjoined]
    exact bodyMarkup?_append style.fontFamily (style.document first) (style.document second)
  · intro text steps assembly hnew hlines
    rw [hnew.eq_start]
    exact ⟨fun count => Assembly.size_performAll_start style (steps.take count),
      Assembly.document_performAll_start style steps hlines⟩

theorem Style.document_joined_mixed :
    let steps : List Assembly.Step :=
      [.push (Line.classify "# a"), .extend [], .extend [Line.classify "*b*", Line.classify ""]]
    steps.flatMap Assembly.Step.lines = Line.ofText "# a\n*b*\n" ∧
      ((Assembly.startExpecting Style.reference 7).performAll (steps.take 2)).size = 1 ∧
      ((Assembly.startExpecting Style.reference 7).performAll steps).document =
        Style.reference.document "# a\n*b*\n" := by
  intro steps
  have hlines : steps.flatMap Assembly.Step.lines = Line.ofText "# a\n*b*\n" := by
    decide +kernel
  obtain ⟨hsize, hdocument⟩ := (Style.reference.document_joined "" "").2.2 _ steps _
    (.startExpecting 7) hlines
  exact ⟨hlines, hsize 2, hdocument⟩

end Manuscript
