import Manuscript.Document
import Manuscript.Text.Decimal
import Manuscript.Xml.Piece
/-!
# The markup of a document

A document as the main part of a word-processing package: a body of paragraphs, each with its
alignment, and of runs, each with the properties that make its look.
-/

namespace Manuscript

open Xml (Piece)

def Alignment.keyword : Alignment → String
  | .left => "left"
  | .center => "center"
  | .right => "right"
  | .justify => "both"

namespace Wordprocessing

def mainNamespace : String :=
  "http://schemas.openxmlformats.org/wordprocessingml/2006/main"

def relationshipsNamespace : String :=
  "http://schemas.openxmlformats.org/officeDocument/2006/relationships"

def valued (name value : String) : Piece :=
  .empty name [⟨"w:val", value⟩]

def runProperties (font : String) (run : Run) : List Piece :=
  .empty "w:rFonts" [⟨"w:ascii", font⟩, ⟨"w:hAnsi", font⟩] ::
    (if run.bold then [.empty "w:b" [], .empty "w:bCs" []] else []) ++
    (if run.italic then [.empty "w:i" [], .empty "w:iCs" []] else []) ++
    [valued "w:color" run.color.digits,
      valued "w:sz" (Text.showNat run.size.toNat),
      valued "w:szCs" (Text.showNat run.size.toNat)] ++
    (if run.underline then [valued "w:u" "single"] else [])

def runPieces (font : String) (run : Run) : List Piece :=
  [.start "w:r" [], .start "w:rPr" []] ++ runProperties font run ++
    [.finish "w:rPr", .start "w:t" [⟨"xml:space", "preserve"⟩], .text run.text,
      .finish "w:t", .finish "w:r"]

def paragraphPieces (font : String) (paragraph : Paragraph) : List Piece :=
  [.start "w:p" [], .start "w:pPr" [], valued "w:jc" paragraph.alignment.keyword,
      .finish "w:pPr"] ++
    paragraph.runs.flatMap (runPieces font) ++ [.finish "w:p"]

def bodyPieces (font : String) (document : Document) : List Piece :=
  document.paragraphs.flatMap (paragraphPieces font)

def documentPieces (font : String) (document : Document) : List Piece :=
  [.start "w:document" [⟨"xmlns:w", mainNamespace⟩, ⟨"xmlns:r", relationshipsNamespace⟩],
      .start "w:body" []] ++
    bodyPieces font document ++ [.finish "w:body", .finish "w:document"]

def documentXml (font : String) (document : Document) : String :=
  Xml.renderText (documentPieces font document)

/-- The number of bytes of the markup. Each run names the font twice, and the rest does not depend
on it. -/
def documentSize (font : String) (document : Document) : Nat :=
  Utf8.size (documentXml "" document).toList +
    2 * document.runCount * Utf8.size (Xml.escapeChars font.toList)

end Wordprocessing

end Manuscript
