import Manuscript.Document
import Manuscript.Text.Blank
/-!
# Statistics

Counts of a document's paragraphs by role, of its runs, and of the words and visible characters
of its runs.
-/

namespace Manuscript

structure Stats where
  paragraphs : UInt32 := 0
  titles : UInt32 := 0
  subtitles : UInt32 := 0
  bodies : UInt32 := 0
  blanks : UInt32 := 0
  runs : UInt32 := 0
  words : UInt32 := 0
  chars : UInt32 := 0
  deriving DecidableEq, Repr, Inhabited

namespace Stats

def empty : Stats := {}

def addParagraph (stats : Stats) (role : Role) : Stats :=
  let counted := { stats with paragraphs := stats.paragraphs + 1 }
  match role with
  | .title => { counted with titles := stats.titles + 1 }
  | .subtitle => { counted with subtitles := stats.subtitles + 1 }
  | .body => { counted with bodies := stats.bodies + 1 }
  | .blank => { counted with blanks := stats.blanks + 1 }

def countText (stats : Stats) (text : String) : Stats :=
  { stats with
    words := stats.words + UInt32.ofNat (Text.wordCount text)
    chars := stats.chars + UInt32.ofNat (Text.inkCount text) }

def countParagraph (stats : Stats) (paragraph : Paragraph) : Stats :=
  let counted := stats.addParagraph paragraph.role
  let counted := { counted with runs := counted.runs + UInt32.ofNat paragraph.runs.length }
  paragraph.runs.foldl (fun stats run => stats.countText run.text) counted

def ofDocument (document : Document) : Stats :=
  document.paragraphs.foldl countParagraph empty

def merge (a b : Stats) : Stats where
  paragraphs := a.paragraphs + b.paragraphs
  titles := a.titles + b.titles
  subtitles := a.subtitles + b.subtitles
  bodies := a.bodies + b.bodies
  blanks := a.blanks + b.blanks
  runs := a.runs + b.runs
  words := a.words + b.words
  chars := a.chars + b.chars

def headings (stats : Stats) : UInt32 :=
  stats.titles + stats.subtitles

end Stats

end Manuscript
