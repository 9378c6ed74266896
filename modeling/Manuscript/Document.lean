import Manuscript.Style.Color
import Manuscript.Text.Lines
/-!
# Documents

A document is a list of paragraphs, and a paragraph a list of runs: pieces of text that look the
same throughout.
-/

namespace Manuscript

structure Run where
  text : String
  bold : Bool
  italic : Bool
  underline : Bool
  size : UInt32
  color : Color
  deriving DecidableEq, Repr, Inhabited

def Run.isEmphasized (run : Run) : Bool :=
  run.bold || run.italic || run.underline

inductive Alignment where
  | left
  | center
  | right
  | justify
  deriving DecidableEq, Repr, Inhabited

inductive Role where
  | title
  | subtitle
  | body
  | blank
  deriving DecidableEq, Repr, Inhabited

structure Paragraph where
  runs : List Run
  alignment : Alignment
  role : Role
  deriving DecidableEq, Repr, Inhabited

namespace Paragraph

def blank : Paragraph := ⟨[], .left, .blank⟩

def plainText (paragraph : Paragraph) : String :=
  String.join (paragraph.runs.map Run.text)

def isEmpty (paragraph : Paragraph) : Bool :=
  paragraph.runs.isEmpty

def isHeading (paragraph : Paragraph) : Bool :=
  paragraph.role == .title || paragraph.role == .subtitle

end Paragraph

structure Document where
  paragraphs : List Paragraph
  deriving DecidableEq, Repr, Inhabited

namespace Document

def empty : Document := ⟨[]⟩

def push (document : Document) (paragraph : Paragraph) : Document :=
  ⟨document.paragraphs ++ [paragraph]⟩

def paragraphCount (document : Document) : Nat :=
  document.paragraphs.length

def runCount (document : Document) : Nat :=
  (document.paragraphs.flatMap Paragraph.runs).length

def roleCount (document : Document) (role : Role) : Nat :=
  document.paragraphs.countP fun paragraph => paragraph.role == role

def isEmpty (document : Document) : Bool :=
  document.paragraphs.isEmpty

/-- The text of a document, a line for each paragraph. -/
def plainText (document : Document) : String :=
  Text.unlines (document.paragraphs.map Paragraph.plainText)

end Document

end Manuscript
