import Manuscript.Document
import Manuscript.Inline
import Manuscript.Line
import Manuscript.Style
/-!
# Assembly

Every source line becomes one paragraph. Its kind decides role, alignment and style, and the
emphasis of its content decides the runs.
-/

namespace Manuscript

namespace RoleStyle

def run (style : RoleStyle) (bold underline : Bool) (span : Span) : Run :=
  { text := span.text
    bold := bold || span.bold
    italic := span.italic
    underline
    size := style.size
    color := style.color }

def runs (style : RoleStyle) (bold underline : Bool) (content : String) : List Run :=
  (Inline.parse content).map (style.run bold underline)

end RoleStyle

namespace Style

/-- The paragraph of a line. A heading of the first level is a title, any other a subtitle. -/
def paragraph (style : Style) (line : Line) : Paragraph :=
  match line.kind with
  | .blank => .blank
  | .heading level =>
    if level = 1 then ⟨style.title.runs false false line.content, .left, .title⟩
    else
      ⟨style.subtitle.runs style.subtitleBold style.subtitleUnderline line.content, .left,
        .subtitle⟩
  | .paragraph =>
    ⟨style.body.runs false false line.content, if style.justifyBody then .justify else .left,
      .body⟩

def document (style : Style) (text : String) : Document :=
  ⟨(Line.ofText text).map style.paragraph⟩

end Style

structure Assembly where
  style : Style
  document : Document

namespace Assembly

def start (style : Style) : Assembly := ⟨style, .empty⟩

/-- The start of an assembly for which a number of lines is expected. The number is only a hint for
how much room to ask for, and a number that no room can be asked for is not modelled. -/
def startExpecting (style : Style) (_count : Nat) : Assembly := start style

def push (assembly : Assembly) (line : Line) : Assembly :=
  { assembly with document := assembly.document.push (assembly.style.paragraph line) }

def extend (assembly : Assembly) (lines : List Line) : Assembly :=
  lines.foldl push assembly

def size (assembly : Assembly) : Nat :=
  assembly.document.paragraphCount

def isEmpty (assembly : Assembly) : Bool :=
  assembly.document.isEmpty

end Assembly

end Manuscript
