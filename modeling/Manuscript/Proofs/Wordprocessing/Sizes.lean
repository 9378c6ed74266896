import Manuscript.Proofs.Xml.Sizes
import Manuscript.Wordprocessing.Markup

/-!
# The size of a document part

Each run of a document names the font twice, as it is written in markup, and nothing else in the
part depends on the font. So the size is known before the part is written, and it grows with the
number of runs as fast as the font has characters.
-/

namespace Manuscript.Wordprocessing

open String (utf8Len)
open Xml (Piece escapeChars renderPieces)

theorem utf8Len_flatMap_of_add {α : Type} {f g : α → List Piece} {more : α → Nat}
    (h : ∀ a, utf8Len (renderPieces (f a)) = utf8Len (renderPieces (g a)) + more a) (as : List α) :
    utf8Len (renderPieces (as.flatMap f)) =
      utf8Len (renderPieces (as.flatMap g)) + (as.map more).sum := by
  induction as with
  | nil => rfl
  | cons a as ih =>
      have ha := h a
      simp only [renderPieces] at ha ih ⊢
      simp only [List.flatMap_cons, List.flatMap_append, String.utf8Len_append, List.map_cons,
        List.sum_cons]
      omega

variable (font : String)

theorem utf8Len_runPieces (run : Run) :
    utf8Len (renderPieces (runPieces font run)) =
      utf8Len (renderPieces (runPieces "" run)) + 2 * utf8Len (escapeChars font.toList) := by
  have hempty : escapeChars "".toList = [] := rfl
  simp only [renderPieces, runPieces, runProperties, List.flatMap_append, List.flatMap_cons,
    List.cons_append, List.nil_append, Piece.render, Xml.Attribute.render, hempty, List.append_nil,
    String.utf8Len_append, String.utf8Len_cons, String.utf8Len_nil, List.flatMap_nil]
  omega

theorem utf8Len_paragraphPieces (paragraph : Paragraph) :
    utf8Len (renderPieces (paragraphPieces font paragraph)) =
      utf8Len (renderPieces (paragraphPieces "" paragraph)) +
        paragraph.runs.length * (2 * utf8Len (escapeChars font.toList)) := by
  have hruns := utf8Len_flatMap_of_add (utf8Len_runPieces font) paragraph.runs
  rw [List.map_const', List.sum_replicate, smul_eq_mul] at hruns
  simp only [renderPieces, paragraphPieces, List.flatMap_append, String.utf8Len_append] at hruns ⊢
  omega

theorem length_bytes_documentXml (document : Document) :
    (Utf8.bytes (documentXml font document)).length = documentSize font document := by
  have hbody := utf8Len_flatMap_of_add (utf8Len_paragraphPieces font) document.paragraphs
  rw [List.sum_map_mul_right, ← List.length_flatMap] at hbody
  have hcount : document.runCount * (2 * utf8Len (escapeChars font.toList)) =
      2 * document.runCount * utf8Len (escapeChars font.toList) := by ring
  rw [documentSize, Utf8.size_eq, Utf8.size_eq, String.utf8Len_toList, Utf8.length_bytes,
    ← hcount]
  simp only [documentXml, Xml.renderText, String.utf8ByteSize_ofList, String.utf8Len_append,
    documentPieces, bodyPieces, renderPieces, List.flatMap_append, Document.runCount] at hbody ⊢
  omega

end Manuscript.Wordprocessing
