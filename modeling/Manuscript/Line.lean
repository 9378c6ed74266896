import Manuscript.Text.Blank
import Manuscript.Text.Lines
/-!
# Source lines

A source line is blank, a heading or a paragraph. A heading is one to six number signs, some
space, and a text without line feeds; space at the end of a line never counts.
-/

namespace Manuscript

open Text

inductive LineKind where
  | blank
  | heading (level : UInt8)
  | paragraph
  deriving DecidableEq, Repr, Inhabited

structure Line where
  kind : LineKind
  content : String
  deriving DecidableEq, Repr, Inhabited

namespace Line

def isBlank (line : Line) : Bool :=
  line.kind == .blank

def headingLevel? (line : Line) : Option UInt8 :=
  match line.kind with
  | .heading level => some level
  | .blank | .paragraph => none

/-- The number of marks and the content of a heading without trailing space. -/
def heading? (cs : List Char) : Option (Nat × List Char) :=
  let marks := cs.takeWhile (· == '#')
  let rest := cs.dropWhile (· == '#')
  let content := rest.dropWhile isSpacing
  if 1 ≤ marks.length ∧ marks.length ≤ 6 ∧ content.length < rest.length ∧ content ≠ [] ∧
      '\n' ∉ content then
    some (marks.length, content)
  else none

def classify (s : String) : Line :=
  match trimEnd isSpacing s.toList with
  | [] => ⟨.blank, ""⟩
  | c :: cs =>
    match heading? (c :: cs) with
    | some (level, content) => ⟨.heading (UInt8.ofNat level), String.ofList content⟩
    | none => ⟨.paragraph, String.ofList (c :: cs)⟩

def ofText (s : String) : List Line :=
  (lines s).map classify

end Line

end Manuscript
