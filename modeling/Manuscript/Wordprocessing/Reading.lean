import Manuscript.Xml.Entity
import Manuscript.Xml.Event
/-!
# The paragraphs of a document part

The text of a document is read from its markup: the texts of text elements, and a tab or a line
break for the elements that stand for these, each added to the innermost open paragraph. A
paragraph is given when it ends; those that never end are given last, the outermost first.
Elements are known by their names without namespaces.
-/

namespace Manuscript.Wordprocessing

open Xml (Event)

inductive Warning where
  | strayText
  | unclosed (paragraphs : Nat)
  deriving DecidableEq, Repr

def Warning.message : Warning → String
  | strayText => "Text outside of any paragraph ignored"
  | unclosed n => Text.showNat n ++ " paragraph(s) left unclosed at end of document"

inductive Meaning where
  | paragraph
  | text
  | char (c : Char)
  | nothing
  deriving DecidableEq, Repr

def meaning (name : List Char) : Meaning :=
  let name := Xml.localName name
  if name = ['p'] then .paragraph
  else if name = ['t'] then .text
  else if name = ['t', 'a', 'b'] then .char '\t'
  else if name = ['b', 'r'] ∨ name = ['c', 'r'] then .char '\n'
  else .nothing

structure Progress where
  /-- The texts of the paragraphs that have ended, the latest first. -/
  done : List (List Char) := []
  /-- The texts of the open paragraphs so far, the innermost first. -/
  opened : List (List Char) := []
  inText : Bool := false
  warnings : List Warning := []

namespace Progress

def add (progress : Progress) (cs : List Char) : Progress :=
  match progress.opened with
  | [] => progress
  | current :: outer => { progress with opened := (current ++ cs) :: outer }

/-- Adds a text to the innermost open paragraph, or warns of it. -/
def addText (progress : Progress) (cs : List Char) : Progress :=
  match progress.opened with
  | [] => { progress with warnings := .strayText :: progress.warnings }
  | _ :: _ => progress.add cs

def step (progress : Progress) : Event → Except Xml.EntityFault Progress
  | .start name =>
    match meaning name with
    | .paragraph => .ok { progress with opened := [] :: progress.opened }
    | .text => .ok { progress with inText := true }
    | .char c => .ok (progress.add [c])
    | .nothing => .ok progress
  | .empty name =>
    match meaning name with
    | .paragraph => .ok { progress with done := [] :: progress.done }
    | .char c => .ok (progress.add [c])
    | .text | .nothing => .ok progress
  | .finish name =>
    match meaning name with
    | .paragraph =>
      match progress.opened with
      | [] => .ok progress
      | text :: outer => .ok { progress with done := text :: progress.done, opened := outer }
    | .text => .ok { progress with inText := false }
    | .char _ | .nothing => .ok progress
  | .text content =>
    if progress.inText then do .ok (progress.addText (← Xml.unescape content))
    else .ok progress

def run (progress : Progress) : List Event → Progress × Option Xml.EntityFault
  | [] => (progress, none)
  | event :: events =>
    match progress.step event with
    | .ok next => next.run events
    | .error fault => (progress, some fault)

def texts (progress : Progress) : List (List Char) :=
  progress.done.reverse ++ progress.opened.reverse

def allWarnings (progress : Progress) : List Warning :=
  let closing :=
    match progress.opened.length with
    | 0 => []
    | n + 1 => [.unclosed (n + 1)]
  progress.warnings.reverse ++ closing

end Progress

structure Noted (α : Type) where
  value : α
  warnings : List Warning

def paragraphTexts (xml : String) : Noted (Except Xml.Fault (List String)) :=
  let (events, fault) := Xml.events xml
  match Progress.run {} events with
  | (progress, some fault) => ⟨.error (.entity fault), progress.warnings.reverse⟩
  | (progress, none) =>
    match fault with
    | some fault => ⟨.error fault, progress.warnings.reverse⟩
    | none => ⟨.ok (progress.texts.map String.ofList), progress.allWarnings⟩

end Manuscript.Wordprocessing
